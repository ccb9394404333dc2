import Parley.Proofs.Regex.Pieces

/-!
# Runs of the reader

An expression that can be read alone is spelled by the same pieces in parentheses, or else a comment
at its end takes the closing parenthesis with it, and then the group stays open. What the pieces do
depends on nothing that is around them, but for the names of groups.

Main results:

* `readFrom_of_spells` — reading goes on behind the pieces that a text in parentheses is spelled by;
* `exists_encloses` — a text that is read alone is spelled in parentheses as well, or ends in a
  comment;
* `State.Within.takeAll?` — pieces do inside of another state what they do alone.
-/

namespace Parley.Regex

open Text

/-! ## Flags and pieces -/

/-- The flags in force, and behind them those that will be in force when groups are closed. -/
def State.stack (st : State) : List Flags := st.flags :: st.outer.map OpenGroup.flags

/-- What a piece does to these flags. -/
def Piece.shift : Piece → List Flags → List Flags
  | _, [] => []
  | .opening .capture, f :: below => f :: f :: below
  | .opening (.named _), f :: below => f :: f :: below
  | .opening (.plain g), f :: below => g :: f :: below
  | .opening (.switch g), _ :: below => g :: below
  | .close, _ :: below => below
  | .bar, fs => fs
  | .expr _, fs => fs
  | .again _ _ _, fs => fs

/-- What a piece does to the flags depends on nothing else of the state. -/
theorem State.stack_take? {st st' : State} {p : Piece} (h : st.take? p = some st') :
    st'.stack = p.shift st.stack := by
  cases p with
  | opening o =>
    cases o with
    | capture => exact Option.some.inj h ▸ rfl
    | named name =>
      rw [take?] at h
      split at h
      · cases h
      · exact Option.some.inj h ▸ rfl
    | plain g => exact Option.some.inj h ▸ rfl
    | switch g => exact Option.some.inj h ▸ rfl
  | close =>
    rw [take?, closeGroup?] at h
    split at h
    · cases h
    -- the flags of the group around are in force again
    · next houter =>
      obtain rfl := Option.some.inj h
      rw [stack, stack, houter]
      rfl
  | bar => exact Option.some.inj h ▸ rfl
  | expr r => exact Option.some.inj h ▸ rfl
  | again min max? greedy =>
    rw [take?, repeatLast?] at h
    split at h
    · exact Option.some.inj h ▸ rfl
    · cases h

/-- Groups that are open around the text are not touched. -/
theorem Piece.shift_append {p : Piece} {fs : List Flags} (h : fs ≠ []) (below : List Flags) :
    p.shift (fs ++ below) = p.shift fs ++ below := by
  cases fs with
  | nil => exact absurd rfl h
  | cons f fs =>
    cases p with
    | opening o => cases o <;> rfl
    | close => rfl
    | bar => rfl
    | expr r => rfl
    | again min max? greedy => rfl

/-- Pieces that are alike keep flags alike. -/
theorem Piece.Alike.shift {p q : Piece} (hpq : p.Alike q) {fs gs : List Flags}
    (h : List.Forall₂ Flags.Alike fs gs) : List.Forall₂ Flags.Alike (p.shift fs) (q.shift gs) := by
  cases h with
  | nil => cases hpq <;> exact .nil
  | cons hfg h =>
    cases hpq with
    | opening ho =>
      cases ho with
      | capture => exact .cons hfg (.cons hfg h)
      | named name => exact .cons hfg (.cons hfg h)
      | plain hflags => exact .cons hflags (.cons hfg h)
      | switch hflags => exact .cons hflags h
    | close => exact h
    | bar => exact .cons hfg h
    | expr r r' => exact .cons hfg h
    | again min max? greedy => exact .cons hfg h

/-! ## Taking pieces -/

/-- Takes pieces one after the other. -/
def State.takeAll? (st : State) : List Piece → Option State
  | [] => some st
  | p :: ps => (st.take? p).bind fun st => st.takeAll? ps

/-- Reading goes on behind the piece that was read. -/
theorem readFrom_of_readPiece {st : State} {s r : List Char} {p : Piece}
    (h : readPiece st.flags (skip st.flags s) = some (p, r)) (n : Nat) :
    readFrom (n + 1) st s = (st.take? p).bind fun st => readFrom n st r := by
  rw [readFrom]
  split
  · next hskip =>
    rw [hskip] at h
    cases h
  · rw [step?_eq, h, Option.bind_some]
    cases st.take? p <;> rfl

/-- Without a piece to read, the text is refused. -/
theorem readFrom_of_readPiece_eq_none {st : State} {s : List Char} (hs : skip st.flags s ≠ [])
    (h : readPiece st.flags (skip st.flags s) = none) (n : Nat) : readFrom n st s = none := by
  cases n with
  | zero => rfl
  | succ n =>
    rw [readFrom]
    split
    · next hskip => exact absurd hskip hs
    · rw [step?_eq, h]
      rfl

/-- At the end of the text, no group may be open. -/
theorem readFrom_of_skip {st : State} {s : List Char} (h : skip st.flags s = []) (n : Nat) :
    readFrom (n + 1) st s = if st.outer.isEmpty then some st else none := by
  rw [readFrom, h]

/-- A parenthesis is not skipped. -/
theorem skip_parenthesis (f : Flags) (t : List Char) : skip f (')' :: t) = ')' :: t := by
  have hblank : isBlank ')' = false := by decide
  unfold skip
  split
  · simp [skipVerbose, hblank]
  · rfl

/-- Whether a text in front of a closing parenthesis is read as pieces, whatever follows. -/
inductive Spells : List Flags → List Char → List Piece → Prop where
  | nil {f : Flags} {below : List Flags} {s : List Char}
    (h : ∀ t, skip f (s ++ ')' :: t) = ')' :: t) : Spells (f :: below) s []
  | cons {f : Flags} {below : List Flags} {s r : List Char} {p : Piece} {ps : List Piece}
    (h : ∀ t, readPiece f (skip f (s ++ ')' :: t)) = some (p, r ++ ')' :: t))
    (hrest : Spells (p.shift (f :: below)) r ps) : Spells (f :: below) s (p :: ps)

/-- Reading goes on behind the pieces, from the state that they lead to. -/
theorem readFrom_of_spells {fs : List Flags} {s : List Char} {ps : List Piece} (h : Spells fs s ps)
    {st : State} (hst : st.stack = fs) (n : Nat) (t : List Char) :
    readFrom (ps.length + n) st (s ++ ')' :: t) =
      (st.takeAll? ps).bind fun st => readFrom n st (')' :: t) := by
  induction h generalizing st with
  -- at the parenthesis the flags are those that the state has, so that the next step is the same
  | nil h =>
    obtain ⟨rfl, -⟩ := List.cons.inj hst
    rw [List.length_nil, Nat.zero_add, State.takeAll?, Option.bind_some]
    cases n with
    | zero => rfl
    | succ n => rw [readFrom, readFrom, h, skip_parenthesis]
  | @cons f below s r p ps h hrest ih =>
    obtain ⟨rfl, -⟩ := List.cons.inj hst
    rw [List.length_cons, Nat.add_right_comm, readFrom_of_readPiece (h t), State.takeAll?]
    cases htake : st.take? p with
    | none => rfl
    | some st' => exact ih ((State.stack_take? htake).trans (congrArg p.shift hst))

/-! ## Alone and in parentheses -/

/-- Whether a text with a closing parenthesis behind it leaves open a group that is open in front of
it, with the given flags in force. -/
def LeavesOpen (fs : List Flags) (s : List Char) : Prop :=
  ∀ st : State, st.stack = fs → ∀ n, readFrom n st (s ++ [')']) = none

/-- Where groups around the text are open, one is. -/
theorem State.isEmpty_outer {st : State} {fs below : List Flags} (hst : st.stack = fs ++ below)
    (hfs : fs ≠ []) (hbelow : below ≠ []) : st.outer.isEmpty = false := by
  obtain ⟨f, fs, rfl⟩ := List.exists_cons_of_ne_nil hfs
  have houter := (List.cons.inj hst).2
  rw [List.isEmpty_eq_false_iff]
  intro hempty
  rw [hempty] at houter
  exact hbelow (List.append_eq_nil_iff.1 houter.symm).2

/-- The end of the text comes too early for a group that is open. -/
theorem readFrom_nil {st : State} (h : st.outer.isEmpty = false) (n : Nat) :
    readFrom n st [] = none := by
  cases n with
  | zero => rfl
  | succ n => rw [readFrom_of_skip (skip_nil _), h]; rfl

/-- At the end of the text, the state is the result. -/
theorem eq_of_readFrom_nil {st e : State} {n : Nat} (h : readFrom n st [] = some e) :
    e = st ∧ st.outer = [] := by
  cases n with
  | zero => cases h
  | succ n =>
    rw [readFrom_of_skip (skip_nil _)] at h
    split at h
    · next houter => exact ⟨(Option.some.inj h).symm, List.isEmpty_iff.1 houter⟩
    · cases h

/-- Only a closing piece leaves a group. -/
theorem State.isEmpty_outer_take? {st st' : State} {p : Piece} (hp : p ≠ .close)
    (h : st.take? p = some st') (houter : st.outer.isEmpty = false) :
    st'.outer.isEmpty = false := by
  cases p with
  | opening o =>
    cases o with
    | capture => exact Option.some.inj h ▸ rfl
    | named name =>
      rw [take?] at h
      split at h
      · cases h
      · exact Option.some.inj h ▸ rfl
    | plain g => exact Option.some.inj h ▸ rfl
    | switch g => exact Option.some.inj h ▸ houter
  | close => exact absurd rfl hp
  | bar => exact Option.some.inj h ▸ houter
  | expr r => exact Option.some.inj h ▸ houter
  | again min max? greedy =>
    rw [take?, repeatLast?] at h
    split at h
    · exact Option.some.inj h ▸ houter
    · cases h

/-- What takes the parenthesis into a comment leaves the group open. -/
theorem readFrom_of_swallows {st : State} {u : List Char} (hu : u ≠ [])
    (houter : st.outer.isEmpty = false) (h : Swallows (readPiece st.flags) u) {s : List Char}
    (hskip : skip st.flags s = u ++ [')']) (n : Nat) : readFrom n st s = none := by
  -- either the last piece cannot be read, or it takes the parenthesis that should have closed the
  -- group
  cases hpiece : readPiece st.flags (u ++ [')']) with
  | none =>
    refine readFrom_of_readPiece_eq_none ?_ (hskip ▸ hpiece) n
    rw [hskip]
    simp
  | some q =>
    obtain ⟨p, r⟩ := q
    obtain rfl := h p r hpiece
    cases n with
    | zero => rfl
    | succ n =>
      rw [readFrom_of_readPiece (hskip ▸ hpiece)]
      cases htake : st.take? p with
      | none => rfl
      | some st' =>
        -- the text ends here with a group still open
        have hp : p ≠ .close := by
          obtain ⟨c, m, rfl⟩ := List.exists_cons_of_ne_nil hu
          exact ne_close_of_readPiece (head_ne_of_swallows h) hpiece
        exact readFrom_nil (State.isEmpty_outer_take? hp htake houter) n

/-- What takes a parenthesis into a comment at the end of a text leaves verbose mode on. -/
theorem verbose_of_swallows {st st₁ : State} {g : Flags} {u r : List Char} {p : Piece}
    (hverbose : st.flags.verbose = true) (halike : st.flags.Alike g)
    (hpiece : readPiece st.flags u = some (p, r)) (hswallows : Swallows (readPiece g) u)
    (htake : st.take? p = some st₁) (houter : st₁.outer = []) : st₁.flags.verbose = true := by
  have hstack := State.stack_take? htake
  cases u with
  | nil => cases hpiece
  | cons c m =>
    -- a piece that opens a group leaves one open, and any other one leaves the flags
    cases p with
    | opening o =>
      cases o with
      | capture =>
        obtain rfl := Option.some.inj htake
        cases houter
      | named name =>
        rw [State.take?] at htake
        split at htake
        · cases htake
        · obtain rfl := Option.some.inj htake
          cases houter
      | plain f' =>
        obtain rfl := Option.some.inj htake
        cases houter
      | switch f' => exact absurd hswallows (not_swallows_of_switch halike hpiece)
    | close => exact absurd rfl (ne_close_of_readPiece (head_ne_of_swallows hswallows) hpiece)
    | bar => exact (List.cons.inj hstack).1 ▸ hverbose
    | expr r => exact (List.cons.inj hstack).1 ▸ hverbose
    | again min max? greedy => exact (List.cons.inj hstack).1 ▸ hverbose

/-- Whether a text that is read alone as some pieces is spelled by the same pieces in parentheses,
or else leaves them open, in which case `verbose` holds. -/
def Encloses (verbose : Prop) (fs : List Flags) (s : List Char) (ps : List Piece) : Prop :=
  ∀ gs below, List.Forall₂ Flags.Alike fs gs → below ≠ [] →
    (∃ qs, List.Forall₂ Piece.Alike ps qs ∧ Spells (gs ++ below) s qs) ∨
      verbose ∧ LeavesOpen (gs ++ below) s

/-- A text of blanks spells no pieces, with a parenthesis behind it, or leaves it in a comment. -/
theorem encloses_nil {f : Flags} {s : List Char} (hskip : skip f s = []) (fs : List Flags) :
    Encloses (f.verbose = true) (f :: fs) s [] := by
  intro gs below hgs hbelow
  obtain ⟨g, gs, hfg, -, rfl⟩ := List.forall₂_cons_left_iff.1 hgs
  rcases skip_append f s with hkeeps | ⟨hverbose, -, hswallows⟩
  · refine Or.inl ⟨[], .nil, .nil fun t => ?_⟩
    rw [skip_of_alike hfg, hkeeps t, hskip]
    rfl
  · refine Or.inr ⟨hverbose, fun st hst n => ?_⟩
    obtain ⟨rfl, -⟩ := List.cons.inj hst
    have hempty : skip st.flags (s ++ [')']) = [] := (skip_of_alike hfg _).trans hswallows
    cases n with
    | zero => rfl
    | succ n =>
      rw [readFrom_of_skip hempty, State.isEmpty_outer hst (List.cons_ne_nil _ _) hbelow]
      rfl

/-- One piece more. What is left open by the pieces behind it, or by itself, stays open. -/
theorem Encloses.cons {verbose : Prop} {f : Flags} {fs : List Flags} {c : Char} {m s r : List Char}
    {p : Piece} {ps : List Piece} (hskip : skip f s = c :: m)
    (hpiece : readPiece f (c :: m) = some (p, r))
    (hrest : Encloses verbose (p.shift (f :: fs)) r ps)
    (hswallowed : ∀ g, f.Alike g → f.verbose = true → r = [] → Swallows (readPiece g) (c :: m) →
      verbose) : Encloses verbose (f :: fs) s (p :: ps) := by
  intro gs below hgs hbelow
  obtain ⟨g, gs, hfg, -, rfl⟩ := List.forall₂_cons_left_iff.1 hgs
  have hskip' : ∀ t, skip g (s ++ ')' :: t) = c :: m ++ ')' :: t := by
    intro t
    rw [skip_of_alike hfg, skip_append_of_ne_nil (by rw [hskip]; simp), hskip]
  rcases embedsAt_readPiece hfg (c :: m) p r hpiece with
    ⟨q, hpq, hkeeps⟩ | ⟨hverbose, hr, hswallows⟩
  · -- the pieces behind this one decide
    have hpiece' : ∀ t, readPiece g (skip g (s ++ ')' :: t)) = some (q, r ++ ')' :: t) := by
      intro t
      rw [hskip' t, hkeeps t]
    have hshift : q.shift (g :: gs ++ below) = q.shift (g :: gs) ++ below :=
      Piece.shift_append (List.cons_ne_nil g gs) below
    rcases hrest _ below (hpq.shift hgs) hbelow with ⟨qs, hqs, hspells⟩ | ⟨hverbose, hopen⟩
    · rw [← hshift] at hspells
      exact Or.inl ⟨q :: qs, .cons hpq hqs, .cons hpiece' hspells⟩
    · refine Or.inr ⟨hverbose, fun st hst n => ?_⟩
      obtain ⟨rfl, -⟩ := List.cons.inj hst
      cases n with
      | zero => rfl
      | succ n =>
        rw [readFrom_of_readPiece (hpiece' [])]
        cases htake : st.take? q with
        | none => rfl
        | some st' =>
          refine hopen st' ?_ n
          rw [State.stack_take? htake, hst, hshift]
  -- the piece swallows the parenthesis
  · refine Or.inr ⟨hswallowed g hfg hverbose hr hswallows, fun st hst n => ?_⟩
    obtain ⟨rfl, -⟩ := List.cons.inj hst
    exact readFrom_of_swallows (List.cons_ne_nil c m)
      (State.isEmpty_outer hst (List.cons_ne_nil _ _) hbelow) hswallows (hskip' []) n

/-- A text that can be read alone is read as pieces that spell it in parentheses as well, or it ends
in verbose mode and takes the closing parenthesis into a comment. -/
theorem exists_encloses {n : Nat} {st e : State} {s : List Char} (h : readFrom n st s = some e) :
    ∃ ps, st.takeAll? ps = some e ∧ ps.length < n ∧ e.outer = [] ∧
      Encloses (e.flags.verbose = true) st.stack s ps := by
  -- one step takes one piece, so that the induction is on the steps
  induction n generalizing st s with
  | zero => cases h
  | succ n ih =>
    cases hskip : skip st.flags s with
    | nil =>
      rw [readFrom_of_skip hskip] at h
      split at h
      · next houter =>
        obtain rfl := Option.some.inj h
        exact ⟨[], rfl, Nat.zero_lt_succ n, List.isEmpty_iff.1 houter, encloses_nil hskip _⟩
      · cases h
    | cons c m =>
      cases hpiece : readPiece st.flags (c :: m) with
      | none =>
        rw [readFrom_of_readPiece_eq_none (by rw [hskip]; simp) (hskip ▸ hpiece)] at h
        cases h
      | some q =>
        obtain ⟨p, r⟩ := q
        rw [readFrom_of_readPiece (hskip ▸ hpiece)] at h
        obtain ⟨st', htake, h⟩ := Option.bind_eq_some_iff.1 h
        obtain ⟨ps, hps, hlength, houter, hrest⟩ := ih h
        rw [State.stack_take? htake] at hrest
        refine ⟨p :: ps, ?_, Nat.succ_lt_succ hlength, houter, hrest.cons hskip hpiece ?_⟩
        · rw [State.takeAll?, htake]
          exact hps
        · -- a piece that takes the parenthesis is the last one
          rintro g halike hverbose rfl hswallows
          obtain ⟨rfl, hend⟩ := eq_of_readFrom_nil h
          exact verbose_of_swallows hverbose halike hpiece hswallows htake hend

/-! ## States inside of others -/

/-- Whether two items are both expressions or both flags. -/
inductive Item.Alike : Item → Item → Prop where
  | expr (r r' : Regex) : Item.Alike (.expr r) (.expr r')
  | switch : Item.Alike .switch .switch

/-- Whether two open groups have the same kinds of items in front of them. -/
def OpenGroup.Alike (a b : OpenGroup) : Prop := List.Forall₂ Item.Alike a.items b.items

/-- Whether one state is another one inside of the innermost group of a third. -/
structure State.Within (base st st' : State) : Prop where
  items : List.Forall₂ Item.Alike st.items st'.items
  outer : ∃ groups, List.Forall₂ OpenGroup.Alike st.outer groups ∧ st'.outer = groups ++ base.outer
  names : st'.names = st.names ++ base.names

namespace State.Within

variable {base st st' st₁ : State}

/-- An item more on both sides. -/
theorem push (h : base.Within st st') (r r' : Regex) : base.Within (st.push r) (st'.push r') where
  items := .cons (.expr r r') h.items
  outer := h.outer
  names := h.names

/-- A group is opened in both states. -/
theorem openGroup (h : base.Within st st') (index? index?' : Option Nat) (f g : Flags) :
    base.Within (st.openGroup index? f) (st'.openGroup index?' g) where
  items := .nil
  outer := by
    obtain ⟨groups, hgroups, houter⟩ := h.outer
    exact ⟨⟨index?', st'.flags, st'.alternatives, st'.items⟩ :: groups, .cons h.items hgroups,
      congrArg _ houter⟩
  names := h.names

/-- A group that can be closed in the one can be closed in the other. -/
theorem closeGroup? (h : base.Within st st') (hclose : st.closeGroup? = some st₁) :
    ∃ st₁', st'.closeGroup? = some st₁' ∧ base.Within st₁ st₁' := by
  obtain ⟨groups, hgroups, houter⟩ := h.outer
  rw [State.closeGroup?] at hclose
  split at hclose
  · cases hclose
  · next g outer hst =>
    obtain rfl := Option.some.inj hclose
    rw [hst] at hgroups
    obtain ⟨g', groups', hg, hgroups', rfl⟩ := List.forall₂_cons_left_iff.1 hgroups
    refine ⟨_, by rw [State.closeGroup?, houter]; rfl, ?_⟩
    exact ⟨.cons (.expr _ _) hg, ⟨groups', hgroups', rfl⟩, h.names⟩

/-- What can be repeated in the one can be repeated in the other. -/
theorem repeatLast? (h : base.Within st st') {min : Nat} {max? : Option Nat} {greedy : Bool}
    (hrepeat : st.repeatLast? min max? greedy = some st₁) :
    ∃ st₁', st'.repeatLast? min max? greedy = some st₁' ∧ base.Within st₁ st₁' := by
  have hitems := h.items
  rw [State.repeatLast?] at hrepeat
  split at hrepeat
  · next r items hst =>
    obtain rfl := Option.some.inj hrepeat
    rw [hst] at hitems
    obtain ⟨i', items', hi, hitems', heq⟩ := List.forall₂_cons_left_iff.1 hitems
    cases hi with
    | expr _ r' =>
      refine ⟨_, by rw [State.repeatLast?, heq], ?_⟩
      exact ⟨.cons (.expr _ _) hitems', h.outer, h.names⟩
  · cases hrepeat

/-- What a piece does to a state it does inside of another one, unless it gives a group a name that
is already there. -/
theorem take? (h : base.Within st st') {p q : Piece} (hpq : p.Alike q)
    (htake : st.take? p = some st₁) :
    (∃ st₁', st'.take? q = some st₁' ∧ base.Within st₁ st₁') ∨
      (∃ name ∈ st₁.names, name ∈ base.names) ∧ st'.take? q = none := by
  cases hpq with
  | opening ho =>
    cases ho with
    | capture =>
      obtain rfl := Option.some.inj htake
      have hcounted : base.Within { st with groups := st.groups + 1 }
          { st' with groups := st'.groups + 1 } := ⟨h.items, h.outer, h.names⟩
      exact Or.inl ⟨_, rfl, hcounted.openGroup _ _ _ _⟩
    | named name =>
      rw [State.take?] at htake ⊢
      split at htake
      · cases htake
      · next hfresh =>
        obtain rfl := Option.some.inj htake
        -- the only thing that a piece looks up around the state it is taken in
        by_cases hname : name ∈ base.names
        · refine Or.inr ⟨⟨name, List.mem_cons_self, hname⟩, if_pos ?_⟩
          rw [h.names, List.contains_iff_mem]
          exact List.mem_append_right _ hname
        · have hfresh' : ¬st'.names.contains name = true := by
            rw [h.names, List.contains_iff_mem, List.mem_append]
            rintro (hst | hbase)
            · exact hfresh (List.contains_iff_mem.2 hst)
            · exact hname hbase
          have hcounted :
              base.Within { st with groups := st.groups + 1, names := name :: st.names }
                { st' with groups := st'.groups + 1, names := name :: st'.names } :=
            ⟨h.items, h.outer, congrArg (name :: ·) h.names⟩
          exact Or.inl ⟨_, if_neg hfresh', hcounted.openGroup _ _ _ _⟩
    | plain hflags =>
      obtain rfl := Option.some.inj htake
      exact Or.inl ⟨_, rfl, h.openGroup _ _ _ _⟩
    | switch hflags =>
      obtain rfl := Option.some.inj htake
      exact Or.inl ⟨_, rfl, .cons .switch h.items, h.outer, h.names⟩
  | close => exact Or.inl (h.closeGroup? htake)
  | bar =>
    obtain rfl := Option.some.inj htake
    exact Or.inl ⟨_, rfl, .nil, h.outer, h.names⟩
  | expr r r' =>
    obtain rfl := Option.some.inj htake
    exact Or.inl ⟨_, rfl, h.push r r'⟩
  | again min max? greedy => exact Or.inl (h.repeatLast? htake)

end State.Within

/-- A piece adds at most one name, and only a new one. -/
theorem State.names_take? {st st' : State} {p : Piece} (h : st.take? p = some st') :
    st'.names = st.names ∨ ∃ name, name ∉ st.names ∧ st'.names = name :: st.names := by
  cases p with
  | opening o =>
    cases o with
    | capture => exact Or.inl (Option.some.inj h ▸ rfl)
    | named name =>
      rw [take?] at h
      split at h
      · cases h
      · next hfresh =>
        obtain rfl := Option.some.inj h
        exact Or.inr ⟨name, fun hmem => hfresh (List.contains_iff_mem.2 hmem), rfl⟩
    | plain g => exact Or.inl (Option.some.inj h ▸ rfl)
    | switch g => exact Or.inl (Option.some.inj h ▸ rfl)
  | close =>
    rw [take?, closeGroup?] at h
    split at h
    · cases h
    · exact Or.inl (Option.some.inj h ▸ rfl)
  | bar => exact Or.inl (Option.some.inj h ▸ rfl)
  | expr r => exact Or.inl (Option.some.inj h ▸ rfl)
  | again min max? greedy =>
    rw [take?, repeatLast?] at h
    split at h
    · exact Or.inl (Option.some.inj h ▸ rfl)
    · cases h

/-- Names are added and stay apart. -/
theorem State.names_takeAll? {st e : State} {ps : List Piece} (h : st.takeAll? ps = some e) :
    st.names ⊆ e.names ∧ (st.names.Nodup → e.names.Nodup) := by
  induction ps generalizing st with
  | nil =>
    obtain rfl := Option.some.inj h
    exact ⟨List.Subset.refl _, id⟩
  | cons p ps ih =>
    obtain ⟨st₁, htake, h⟩ := Option.bind_eq_some_iff.1 h
    obtain ⟨hsubset, hnodup⟩ := ih h
    rcases names_take? htake with heq | ⟨name, hfresh, heq⟩
    · rw [heq] at hsubset hnodup
      exact ⟨hsubset, hnodup⟩
    · rw [heq] at hsubset hnodup
      exact ⟨fun x hx => hsubset (List.mem_cons_of_mem name hx),
        fun hst => hnodup (List.nodup_cons.2 ⟨hfresh, hst⟩)⟩

/-- Alike pieces do inside of another state what they do alone, unless a name is used again. -/
theorem State.Within.takeAll? {base st st' e : State} (h : base.Within st st') {ps qs : List Piece}
    (hpq : List.Forall₂ Piece.Alike ps qs) (htake : st.takeAll? ps = some e) :
    (∃ e', st'.takeAll? qs = some e' ∧ base.Within e e') ∨
      (∃ name ∈ e.names, name ∈ base.names) ∧ st'.takeAll? qs = none := by
  induction hpq generalizing st st' with
  | nil =>
    obtain rfl := Option.some.inj htake
    exact Or.inl ⟨st', rfl, h⟩
  | cons hpq _ ih =>
    obtain ⟨st₁, hfirst, hrest⟩ := Option.bind_eq_some_iff.1 htake
    rcases h.take? hpq hfirst with ⟨st₁', hfirst', hwithin⟩ | ⟨⟨name, hname, hbase⟩, hfirst'⟩
    · rw [State.takeAll?, hfirst']
      exact ih hwithin hrest
    · refine Or.inr ⟨⟨name, (State.names_takeAll? hrest).1 hname, hbase⟩, ?_⟩
      rw [State.takeAll?, hfirst']
      rfl

end Parley.Regex
