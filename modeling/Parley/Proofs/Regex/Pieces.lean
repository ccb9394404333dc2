import Parley.Proofs.Regex.Sets

/-!
# Pieces of an expression

Reading an expression alternates between taking one piece of the text and doing with it what the
state asks for. Which piece comes next depends on the flags in force only, and it is the same alone
and in parentheses.

Main results:

* `step?_eq` — a step of the reader is to read a piece and to take it;
* `embeds_readOpening` — what an opening parenthesis begins;
* `embedsAt_readPiece` — all pieces.
-/

namespace Parley.Regex

open Text

/-! ## Pieces -/

/-- What is read in one step. -/
inductive Piece where
  | opening (o : Opening)
  | close
  | bar
  | expr (r : Regex)
  /-- The last part again; `greedy` holds if there is no question mark behind it. -/
  | again (min : Nat) (max? : Option Nat) (greedy : Bool)

/-- What a piece does to a state, if it can stand there. -/
def State.take? (st : State) : Piece → Option State
  | .opening .capture =>
    some ({ st with groups := st.groups + 1 }.openGroup (some (st.groups + 1)) st.flags)
  | .opening (.named name) =>
    if st.names.contains name then none
    else
      some ({ st with groups := st.groups + 1, names := name :: st.names }.openGroup
        (some (st.groups + 1)) st.flags)
  | .opening (.plain flags) => some (st.openGroup none flags)
  | .opening (.switch flags) => some { st with flags, items := .switch :: st.items }
  | .close => st.closeGroup?
  | .bar => some st.bar
  | .expr r => some (st.push r)
  | .again min max? greedy => st.repeatLast? min max? greedy

/-- Reading a bracketed set behind its opening bracket. -/
def bracketed (f : Flags) : Reader CharSet := fun s =>
  readSet f ((openSet f s).2.length + 1) [] (openSet f s).1 (openSet f s).2

/-- Reading what may be behind a repetition. -/
def repetition (min : Nat) (max? : Option Nat) : Reader Piece :=
  onChar '?' (leave? (some (.again min max? false))) (leave? (some (.again min max? true)))

/-- Reading the piece that begins with a character, behind it. -/
def pieceBehind (f : Flags) : Char → Reader Piece
  | '(' => mapping .opening (readOpening f)
  | ')' => leave? (some .close)
  | '|' => leave? (some .bar)
  | '[' => mapping (fun set => .expr (.chars set)) (bracketed f)
  | '?' => repetition 0 (some 1)
  | '*' => repetition 0 none
  | '+' => repetition 1 none
  | '\x7b' => andThen (bounds f) fun p => andThen (skipping f) fun _ => repetition p.1 p.2
  | '\\' => mapping (fun a => .expr (atomExpr f a)) (readEscape f)
  | '.' => leave? ((dotExpr? f).map .expr)
  | '^' => leave? (some (.expr (.look (if f.multiLine then .lineStart f.crlf else .textStart))))
  | '$' => leave? (some (.expr (.look (if f.multiLine then .lineEnd f.crlf else .textEnd))))
  | c => leave? (some (.expr (charExpr f c)))

/-- Reading a piece. -/
def readPiece (f : Flags) : Reader Piece := onHead (pieceBehind f)

/-- A step of the reader is to read a piece and to do what it does. -/
theorem step?_eq (st : State) (s : List Char) :
    step? st s =
      (readPiece st.flags s).bind fun p => (st.take? p.1).map fun st => (st, p.2) := by
  -- what is behind a repetition is read in the same way after all four ways to write one
  have hsuffix : ∀ min max? rest, step?.suffix st min max? rest =
      (repetition min max? rest).bind fun p => (st.take? p.1).map fun st => (st, p.2) := by
    intro min max? rest
    unfold step?.suffix
    split
    · rfl
    · next h =>
      rw [repetition, onChar_of_ne h]
      rfl
  cases s with
  | nil => rfl
  | cons c rest =>
    show _ = (pieceBehind st.flags c rest).bind _
    unfold step?
    split
    · next heq => cases heq
    · next heq =>
      obtain ⟨rfl, rfl⟩ := List.cons.inj heq
      show _ = ((readOpening st.flags rest).map _).bind _
      cases readOpening st.flags rest with
      | none => rfl
      | some p =>
        obtain ⟨o, m⟩ := p
        cases o with
        | capture => rfl
        | named name =>
          dsimp only [Option.map_some, Option.bind_some, State.take?]
          split <;> rfl
        | plain flags => rfl
        | switch flags => rfl
    · next heq =>
      obtain ⟨rfl, rfl⟩ := List.cons.inj heq
      rfl
    · next heq =>
      obtain ⟨rfl, rfl⟩ := List.cons.inj heq
      rfl
    · next heq =>
      obtain ⟨rfl, rfl⟩ := List.cons.inj heq
      change (bracketed st.flags rest).map _ = ((bracketed st.flags rest).map _).bind _
      cases bracketed st.flags rest <;> rfl
    · next heq =>
      obtain ⟨rfl, rfl⟩ := List.cons.inj heq
      exact hsuffix 0 (some 1) rest
    · next heq =>
      obtain ⟨rfl, rfl⟩ := List.cons.inj heq
      exact hsuffix 0 none rest
    · next heq =>
      obtain ⟨rfl, rfl⟩ := List.cons.inj heq
      exact hsuffix 1 none rest
    · next heq =>
      obtain ⟨rfl, rfl⟩ := List.cons.inj heq
      rw [readBounds_eq]
      show _ = ((bounds st.flags rest).bind _).bind _
      cases bounds st.flags rest with
      | none => rfl
      | some p => exact hsuffix p.1.1 p.1.2 (skip st.flags p.2)
    · next heq =>
      obtain ⟨rfl, rfl⟩ := List.cons.inj heq
      show _ = ((readEscape st.flags rest).map _).bind _
      cases readEscape st.flags rest <;> rfl
    · next heq =>
      obtain ⟨rfl, rfl⟩ := List.cons.inj heq
      show _ = (((dotExpr? st.flags).map _).map _).bind _
      cases dotExpr? st.flags <;> rfl
    · next heq =>
      obtain ⟨rfl, rfl⟩ := List.cons.inj heq
      rfl
    · next heq =>
      obtain ⟨rfl, rfl⟩ := List.cons.inj heq
      rfl
    · next heq =>
      obtain ⟨rfl, rfl⟩ := List.cons.inj heq
      -- any other character stands for itself
      have hbehind : pieceBehind st.flags c = leave? (some (.expr (charExpr st.flags c))) := by
        unfold pieceBehind
        split <;> first | contradiction | rfl
      rw [hbehind]
      rfl

section Alike

variable {f g : Flags}

/-! ## Openings -/

/-- A flag that can be set can be set on both sides, which stay alike. -/
theorem exists_set? (halike : f.Alike g) {c : Char} {on : Bool} {f' : Flags}
    (h : f.set? c on = some f') : ∃ g', g.set? c on = some g' ∧ f'.Alike g' := by
  obtain ⟨b, rfl⟩ := halike
  unfold Flags.set? at h ⊢
  split at h
  case h_8 => cases h
  case h_1 => exact ⟨_, rfl, Option.some.inj h ▸ ⟨on, rfl⟩⟩
  all_goals exact ⟨_, rfl, Option.some.inj h ▸ ⟨b, rfl⟩⟩

/-- Flags that are read up to their end can be read in front of other texts. -/
theorem readFlags_append (halike : f.Alike g) {done : List Char} {on : Bool} {u r : List Char}
    {f' : Flags} (h : readFlags f done on u = some (f', r)) :
    ∃ g', f'.Alike g' ∧ ∀ e, readFlags g done on (u ++ e) = some (g', r ++ e) := by
  induction u generalizing f g done on with
  | nil => cases h
  | cons c u ih =>
    simp only [List.cons_append, readFlags] at h ⊢
    -- the character ends the flags, turns them off, or is one of them
    by_cases hend : (c == ':' || c == ')') = true
    · rw [if_pos hend] at h
      simp only [if_pos hend]
      split at h
      · cases h
      · next hhyphen =>
        obtain ⟨rfl, rfl⟩ := Prod.mk.inj (Option.some.inj h)
        exact ⟨g, halike, fun e => if_neg hhyphen⟩
    · rw [if_neg hend] at h
      simp only [if_neg hend]
      split at h
      · cases h
      · next hdone =>
        simp only [if_neg hdone]
        split at h
        · next hhyphen =>
          simp only [if_pos hhyphen]
          exact ih halike h
        · next hhyphen =>
          simp only [if_neg hhyphen]
          obtain ⟨f₁, hset, h⟩ := Option.bind_eq_some_iff.1 h
          obtain ⟨g₁, hset', halike'⟩ := exists_set? halike hset
          simp only [hset']
          exact ih halike' h

/-- Whether two openings are the same but for whether case is ignored. -/
inductive Opening.Alike : Opening → Opening → Prop where
  | capture : Opening.Alike .capture .capture
  | named (name : List Char) : Opening.Alike (.named name) (.named name)
  | plain {f g : Flags} (h : f.Alike g) : Opening.Alike (.plain f) (.plain g)
  | switch {f g : Flags} (h : f.Alike g) : Opening.Alike (.switch f) (.switch g)

/-- Reading the end of flags, which says what they are for. -/
def flagsEnd (f : Flags) : Reader Opening :=
  onHead fun c =>
    if c = ':' then leave? (some (.plain f))
    else if c = ')' then leave? (some (.switch f))
    else refuse

/-- Reading flags, of which there must be some, and what they are for. -/
def flagged (f : Flags) : Reader Opening
  | [] => none
  | c :: s => if c = ')' then none else andThen (readFlags f [] true) flagsEnd (c :: s)

/-- Flags and what is behind them, with the cases of the reader. -/
theorem flagged_eq {f : Flags} {s : List Char} (h : ∀ rest, s = ')' :: rest → False) :
    flagged f s =
      match readFlags f [] true s with
      | some (f, ':' :: s) => some (.plain f, s)
      | some (f, ')' :: s) => some (.switch f, s)
      | _ => none := by
  cases s with
  | nil => rfl
  | cons c s =>
    rw [flagged, if_neg fun hc => h s (by rw [hc]), andThen]
    cases readFlags f [] true (c :: s) with
    | none => rfl
    | some p =>
      obtain ⟨f', m⟩ := p
      rw [Option.bind_some]
      -- the character behind the flags is a colon, a parenthesis or wrong
      cases m with
      | nil => rfl
      | cons d m =>
        dsimp only [flagsEnd, onHead]
        split
        · next hd =>
          subst hd
          rfl
        · next hcolon =>
          split
          · next hd =>
            subst hd
            rfl
          · next hparenthesis =>
            split
            · next heq =>
              have hends := (Prod.mk.inj (Option.some.inj heq)).2
              exact absurd (List.cons.inj hends).1 hcolon
            · next heq =>
              have hends := (Prod.mk.inj (Option.some.inj heq)).2
              exact absurd (List.cons.inj hends).1 hparenthesis
            · rfl

/-- What flags are for is said by one character. -/
theorem embeds_flagsEnd (v : Bool) (halike : f.Alike g) :
    Embeds v Opening.Alike (flagsEnd f) (flagsEnd g) := by
  refine embeds_onHead fun c => Embeds.embedsAt ?_
  exact embeds_ite (embeds_leave? v (.some (.plain halike)))
    (embeds_ite (embeds_leave? v (.some (.switch halike))) (embeds_refuse v))

/-- Flags are read alike in a group. -/
theorem embedsAt_flagged (v : Bool) (halike : f.Alike g) (u : List Char) :
    EmbedsAt v Opening.Alike (flagged f) (flagged g) u := by
  have hflags : ∀ u, EmbedsAt v Flags.Alike (readFlags f [] true) (readFlags g [] true) u := by
    intro u f' r h
    obtain ⟨g', halike', happend⟩ := readFlags_append halike h
    exact Or.inl ⟨g', halike', fun t => happend _⟩
  have hstops : ∀ f, Stops (flagsEnd f) := fun f => (embeds_flagsEnd v (.refl f)).stops
  cases u with
  | nil =>
    intro o r h
    cases h
  | cons c u =>
    by_cases hc : c = ')'
    · intro o r h
      rw [flagged, if_pos hc] at h
      cases h
    · refine EmbedsAt.of_eq ?_ (if_neg hc) fun t => if_neg hc
      exact (hflags (c :: u)).andThen
        (fun f' g' m halike' _ => (embeds_flagsEnd v halike').embedsAt m) hstops hstops

/-- Reading the name of a group. -/
def groupName : Reader Opening := mapping .named readGroupName

/-- Reading what is behind the question mark of an opening. -/
def behindMark (f : Flags) : Reader Opening :=
  onChar '=' refuse <| onChar '!' refuse <|
    onChar '<' (onChar '=' refuse <| onChar '!' refuse groupName) <|
      onChar 'P' (onChar '<' groupName refuse) (flagged f)

/-- What an opening is shows behind the blanks that may follow it. -/
theorem readOpening_eq (f : Flags) :
    readOpening f =
      andThen (skipping f) fun _ => onChar '?' (behindMark f) (leave? (some .capture)) := by
  funext s
  show _ = onChar '?' _ _ (skip f s)
  unfold readOpening
  -- both sides look behind the blanks; one case for each form of the reader
  generalize skip f s = m
  split
  · rfl
  · rfl
  · rfl
  · rfl
  · rfl
  · next s hlook hnegated =>
    show _ = (onChar '=' refuse <| onChar '!' refuse groupName) s
    rw [onChar_of_ne fun rest h => hlook rest (by rw [h]),
      onChar_of_ne fun rest h => hnegated rest (by rw [h])]
    rfl
  · rfl
  · next s heq hbang _ _ hnamed hangle hparenthesis =>
    show _ = behindMark f s
    rw [behindMark, onChar_of_ne heq, onChar_of_ne hbang, onChar_of_ne hangle]
    refine (flagged_eq hparenthesis).symm.trans ?_
    cases s with
    | nil => rfl
    | cons c s =>
      by_cases hc : c = 'P'
      · -- no flag has this letter
        subst hc
        rw [onChar_cons, onChar_of_ne fun rest h => hnamed rest (by rw [h])]
        rfl
      · exact (if_neg hc).symm
  · next hmark =>
    rw [onChar_of_ne hmark]
    rfl

/-- The name of a group is read alike in a group. -/
theorem embedsAt_groupName (v : Bool) (u : List Char) :
    EmbedsAt v Opening.Alike groupName groupName u := by
  refine EmbedsAt.mapping (V := Eq) (fun name r h => ?_) ?_
  · unfold readGroupName at h
    split at h
    · next hsplit =>
      refine Or.inl ⟨name, rfl, fun t => ?_⟩
      rw [readGroupName, splitFirst_append hsplit]
      split at h
      · next hname =>
        obtain ⟨rfl, rfl⟩ := Prod.mk.inj (Option.some.inj h)
        exact if_pos hname
      · cases h
    · cases h
  · rintro name _ rfl
    exact .named name

/-- Whatever stands behind a question mark is read alike in a group. -/
theorem embedsAt_behindMark (v : Bool) (halike : f.Alike g) (u : List Char) :
    EmbedsAt v Opening.Alike (behindMark f) (behindMark g) u := by
  have hrefuse : ∀ u, EmbedsAt v Opening.Alike refuse refuse u := (embeds_refuse v).embedsAt
  refine embedsAt_onChar (by decide) hrefuse (embedsAt_onChar (by decide) hrefuse ?_)
  refine embedsAt_onChar (by decide) (fun u => ?_) (embedsAt_onChar (by decide) (fun u => ?_) ?_)
  · exact embedsAt_onChar (by decide) hrefuse
      (embedsAt_onChar (by decide) hrefuse (embedsAt_groupName v u))
  · exact embedsAt_onChar (by decide) (embedsAt_groupName v) (hrefuse u)
  · exact embedsAt_flagged v halike u

/-- An opening is read alike in a group. -/
theorem embeds_readOpening (halike : f.Alike g) :
    Embeds f.verbose Opening.Alike (readOpening f) (readOpening g) := by
  have hcapture : ∀ v, Embeds v Opening.Alike (leave? (some .capture)) (leave? (some .capture)) :=
    fun v => embeds_leave? v (.some .capture)
  rw [readOpening_eq, readOpening_eq]
  refine (embeds_skipping halike).andThen_of_eq fun _ => ?_
  exact embeds_onChar (by decide) (embedsAt_behindMark f.verbose halike) (hcapture _)

/-! ## All pieces -/

/-- Whether two pieces do the same to the shape of a state. -/
inductive Piece.Alike : Piece → Piece → Prop where
  | opening {o o' : Opening} (h : o.Alike o') : Piece.Alike (.opening o) (.opening o')
  | close : Piece.Alike .close .close
  | bar : Piece.Alike .bar .bar
  | expr (r r' : Regex) : Piece.Alike (.expr r) (.expr r')
  | again (min : Nat) (max? : Option Nat) (greedy : Bool) :
    Piece.Alike (.again min max? greedy) (.again min max? greedy)

/-- A bracketed set is read alike in a group, as it ends in its own bracket. -/
theorem embedsAt_bracketed (v : Bool) (halike : f.Alike g) (u : List Char) :
    EmbedsAt v AnySets (bracketed f) (bracketed g) u := by
  intro set r h
  unfold bracketed at h
  obtain ⟨set', hset'⟩ := finishesSet_of_readSet halike .nil rfl h
  refine Or.inl ⟨set', trivial, fun t => ?_⟩
  unfold bracketed
  rw [openSet_append halike (ne_nil_of_readSet h)]
  refine hset' _ (Nat.succ_le_succ ?_) t
  rw [List.length_append]
  exact Nat.le_add_right _ _

/-- A repetition is read alike in a group: it looks for a question mark at most. -/
theorem embeds_repetition (v : Bool) (min : Nat) (max? : Option Nat) :
    Embeds v Piece.Alike (repetition min max?) (repetition min max?) :=
  embeds_onChar (by decide) (embeds_leave? v (.some (.again min max? false))).embedsAt
    (embeds_leave? v (.some (.again min max? true)))

/-- Whether a repetition is greedy is all that is read. -/
theorem eq_again_of_repetition {min : Nat} {max? : Option Nat} {s r : List Char} {p : Piece}
    (h : repetition min max? s = some (p, r)) : ∃ greedy, p = .again min max? greedy := by
  by_cases hmark : ∃ rest, s = '?' :: rest
  · obtain ⟨rest, rfl⟩ := hmark
    rw [repetition, onChar_cons] at h
    exact ⟨false, (Prod.mk.inj (Option.some.inj h)).1.symm⟩
  · rw [repetition, onChar_of_ne fun rest h => hmark ⟨rest, h⟩] at h
    exact ⟨true, (Prod.mk.inj (Option.some.inj h)).1.symm⟩

/-- What a piece is, and what it leaves, is the same in front of a closing parenthesis, unless the
text ends in a comment. -/
theorem embedsAt_readPiece (halike : f.Alike g) (u : List Char) :
    EmbedsAt f.verbose Piece.Alike (readPiece f) (readPiece g) u := by
  have hexpr : ∀ r r' u, EmbedsAt f.verbose Piece.Alike (leave? (some (.expr r)))
      (leave? (some (.expr r'))) u := fun r r' => (embeds_leave? _ (.some (.expr r r'))).embedsAt
  refine (embeds_onHead fun c u => ?_).embedsAt u
  unfold pieceBehind
  split
  · exact ((embeds_readOpening halike).mapping fun _ _ => .opening).embedsAt u
  · exact (embeds_leave? _ (.some .close)).embedsAt u
  · exact (embeds_leave? _ (.some .bar)).embedsAt u
  · exact (embedsAt_bracketed _ halike u).mapping fun _ _ _ => .expr _ _
  · exact (embeds_repetition _ 0 (some 1)).embedsAt u
  · exact (embeds_repetition _ 0 none).embedsAt u
  · exact (embeds_repetition _ 1 none).embedsAt u
  · refine ((embeds_bounds halike).andThen_of_eq fun p => ?_).embedsAt u
    exact (embeds_skipping halike).andThen_of_eq fun _ => embeds_repetition _ p.1 p.2
  · exact ((embeds_readEscape halike).mapping fun _ _ _ => .expr _ _).embedsAt u
  -- the dot does not depend on whether case is ignored
  · have hdot : dotExpr? g = dotExpr? f := by
      obtain ⟨b, rfl⟩ := halike
      rfl
    rw [hdot]
    cases dotExpr? f with
    | none => exact (embeds_leave? _ .none).embedsAt u
    | some r => exact hexpr r r u
  · exact hexpr _ _ u
  · exact hexpr _ _ u
  · exact hexpr _ _ u

/-- Whether a piece opens or closes a group, or is about flags. -/
def Piece.isParenthesis : Piece → Bool
  | .opening _ => true
  | .close => true
  | .bar => false
  | .expr _ => false
  | .again _ _ _ => false

/-- The character that a piece begins with tells whether it is a parenthesis. -/
theorem isParenthesis_of_readPiece {c : Char} {s r : List Char} {p : Piece}
    (h : readPiece f (c :: s) = some (p, r)) : p.isParenthesis = (c == '(' || c == ')') := by
  change pieceBehind f c s = _ at h
  have hrepetition : ∀ {min max? m}, repetition min max? m = some (p, r) →
      p.isParenthesis = false := by
    intro min max? m h
    cases m with
    | nil => exact (Prod.mk.inj (Option.some.inj h)).1 ▸ rfl
    | cons d m =>
      by_cases hd : d = '?'
      · exact (Prod.mk.inj (Option.some.inj ((if_pos hd).symm.trans h))).1 ▸ rfl
      · exact (Prod.mk.inj (Option.some.inj ((if_neg hd).symm.trans h))).1 ▸ rfl
  have hmapping : ∀ {α : Type} {R : Reader α} {k : α → Piece} {b : Bool},
      (∀ a, (k a).isParenthesis = b) → mapping k R s = some (p, r) → p.isParenthesis = b := by
    intro α R k b hk h
    obtain ⟨q, -, heq⟩ := Option.map_eq_some_iff.1 h
    exact (Prod.mk.inj heq).1 ▸ hk q.1
  -- one case for each character that a piece can begin with
  unfold pieceBehind at h
  split at h
  · exact hmapping (fun _ => rfl) h
  · exact (Prod.mk.inj (Option.some.inj h)).1 ▸ rfl
  · exact (Prod.mk.inj (Option.some.inj h)).1 ▸ rfl
  · exact hmapping (fun _ => rfl) h
  · exact hrepetition h
  · exact hrepetition h
  · exact hrepetition h
  · obtain ⟨q, -, h⟩ := Option.bind_eq_some_iff.1 h
    exact hrepetition h
  · exact hmapping (fun _ => rfl) h
  · obtain ⟨q, hdot, heq⟩ := Option.map_eq_some_iff.1 h
    obtain ⟨r', -, rfl⟩ := Option.map_eq_some_iff.1 hdot
    exact (Prod.mk.inj heq).1 ▸ rfl
  · exact (Prod.mk.inj (Option.some.inj h)).1 ▸ rfl
  · exact (Prod.mk.inj (Option.some.inj h)).1 ▸ rfl
  · next hopen hclose _ _ _ _ _ _ _ _ _ _ =>
    have hother : (c == '(' || c == ')') = false := by
      rw [Bool.or_eq_false_iff, beq_eq_false_iff_ne, beq_eq_false_iff_ne]
      exact ⟨hopen, hclose⟩
    rw [hother]
    exact (Prod.mk.inj (Option.some.inj h)).1 ▸ rfl

/-- A parenthesis that closes a group is not taken into a comment. -/
theorem head_ne_of_swallows {c : Char} {m : List Char} (h : Swallows (readPiece f) (c :: m)) :
    c ≠ ')' := by
  rintro rfl
  have hleft : m ++ [')'] = [] := h .close _ rfl
  simp at hleft

/-- Only a closing parenthesis is read as one. -/
theorem ne_close_of_readPiece {c : Char} (hc : c ≠ ')') {s r : List Char} {p : Piece}
    (h : readPiece f (c :: s) = some (p, r)) : p ≠ .close := by
  rintro rfl
  by_cases hopen : c = '('
  · subst hopen
    obtain ⟨q, -, heq⟩ := Option.map_eq_some_iff.1 h
    cases (Prod.mk.inj heq).1
  · have hparenthesis := isParenthesis_of_readPiece h
    simp [Piece.isParenthesis, hopen, hc] at hparenthesis

/-- Flags in parentheses are read to their end. -/
theorem not_swallows_of_switch (halike : f.Alike g) {f' : Flags} {u r : List Char}
    (h : readPiece f u = some (.opening (.switch f'), r)) : ¬Swallows (readPiece g) u := by
  intro hswallows
  cases u with
  | nil => cases h
  | cons c m =>
    have hclose := head_ne_of_swallows hswallows
    have hparenthesis := isParenthesis_of_readPiece h
    obtain rfl : c = '(' := by simpa [Piece.isParenthesis, hclose] using hparenthesis
    obtain ⟨⟨o, r'⟩, hopening, heq⟩ := Option.map_eq_some_iff.1 h
    obtain ⟨ho, rfl⟩ := Prod.mk.inj heq
    obtain rfl := Piece.opening.inj ho
    rw [readOpening_eq] at hopening
    change onChar '?' _ _ (skip f m) = _ at hopening
    cases hskip : skip f m with
    | nil =>
      rw [hskip] at hopening
      cases hopening
    | cons d m' =>
      rw [hskip] at hopening
      by_cases hmark : d = '?'
      · subst hmark
        rw [onChar_cons] at hopening
        rcases embedsAt_behindMark false halike m' _ _ hopening with
          ⟨o', -, hkeeps⟩ | ⟨hfalse, -⟩
        -- the same opening is read with a parenthesis behind, which then is left
        · have hopening' : readOpening g (m ++ [')']) = some (o', r' ++ [')']) := by
            rw [readOpening_eq]
            show onChar '?' _ _ (skip g (m ++ [')'])) = _
            rw [skip_of_alike halike, skip_append_of_ne_nil (by rw [hskip]; simp), hskip]
            exact hkeeps []
          have hleft := hswallows (.opening o') (r' ++ [')']) (by
            show (readOpening g (m ++ [')'])).map _ = _
            rw [hopening']
            rfl)
          simp at hleft
        · cases hfalse
      · cases (if_neg hmark).symm.trans hopening

end Alike

end Parley.Regex
