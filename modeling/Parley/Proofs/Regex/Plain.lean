import Parley.Proofs.Regex.Alternatives

/-!
# Plain expressions

Expressions in which every character stands for itself, and spaces may be repeated. They can always
be read, switch no flags and have no groups.

Main results:

* `plain_escape` — the written form of a text that stands for itself is plain;
* `Plain.exists_readFrom` — what is read for a plain text, in any expression;
* `Plain.readState?_eq` — what is read for it alone.
-/

namespace Parley.Regex

open Text

/-- Texts that are read as one character after the other, and the expressions for those: each
character stands for itself, or is escaped, or is a space that may be repeated. -/
inductive Plain (f : Flags) : List Char → List Regex → Prop where
  | nil : Plain f [] []
  | char {c : Char} {rest : List Char} {rs : List Regex} (hc : isMeta c = false)
    (h : Plain f rest rs) : Plain f (c :: rest) (charExpr f c :: rs)
  | escaped {c : Char} {rest : List Char} {rs : List Regex} (hc : isMeta c = true)
    (h : Plain f rest rs) : Plain f ('\\' :: c :: rest) (charExpr f c :: rs)
  | spaces {rest : List Char} {rs : List Regex} (h : Plain f rest rs) :
    Plain f (' ' :: '+' :: rest) (.repeated (charExpr f ' ') 1 none true :: rs)

/-- The parts of plain texts: characters, and spaces that may be repeated. -/
def IsPart (f : Flags) (r : Regex) : Prop :=
  (∃ c, r = charExpr f c) ∨ r = .repeated (charExpr f ' ') 1 none true

section Plain

variable {f : Flags} {s t : List Char} {rs qs : List Regex}

theorem Plain.append (hs : Plain f s rs) (ht : Plain f t qs) : Plain f (s ++ t) (rs ++ qs) := by
  induction hs with
  | nil => exact ht
  | char hc _ ih => exact .char hc ih
  | escaped hc _ ih => exact .escaped hc ih
  | spaces _ ih => exact .spaces ih

theorem Plain.isPart (h : Plain f s rs) : ∀ r ∈ rs, IsPart f r := by
  induction h with
  | nil => exact fun r hr => absurd hr List.not_mem_nil
  | char _ _ ih => exact List.forall_mem_cons.2 ⟨.inl ⟨_, rfl⟩, ih⟩
  | escaped _ _ ih => exact List.forall_mem_cons.2 ⟨.inl ⟨_, rfl⟩, ih⟩
  | spaces _ ih => exact List.forall_mem_cons.2 ⟨.inr rfl, ih⟩

theorem Plain.append_ne_mark (h : Plain f s rs) (ht : ∀ rest, t ≠ '?' :: rest) (rest : List Char) :
    s ++ t ≠ '?' :: rest := by
  cases h with
  | nil => exact ht rest
  | char hc _ =>
    intro heq
    rw [(List.cons.inj heq).1] at hc
    revert hc
    decide
  | escaped _ _ => simp
  | spaces _ => simp

/-- What a character of a text that stands for itself is read as. -/
def literalPart (f : Flags) (c : Char) : Regex :=
  if c == ' ' then .repeated (charExpr f ' ') 1 none true else charExpr f c

theorem plain_escape (f : Flags) (inner : List Char) :
    Plain f ((escape inner).flatMap fun c => if c == ' ' then [' ', '+'] else [c])
      (inner.map (literalPart f)) := by
  induction inner with
  | nil => exact .nil
  | cons c rest ih =>
    rw [escape, List.map_cons, literalPart]
    split
    · next hc =>
      have hspace : (c == ' ') = false := by
        rw [beq_eq_false_iff_ne]
        rintro rfl
        revert hc
        decide
      simp only [List.flatMap_cons, hspace]
      exact .escaped hc ih
    · next hc =>
      rw [List.flatMap_cons]
      split
      · exact .spaces ih
      · exact .char (by simpa using hc) ih

theorem readPiece_char {c : Char} (hc : isMeta c = false) (rest : List Char) :
    readPiece f (c :: rest) = some (.expr (charExpr f c), rest) := by
  have hbehind : pieceBehind f c = leave? (some (.expr (charExpr f c))) := by
    unfold pieceBehind
    split <;> first | (exfalso; revert hc; decide) | rfl
  show pieceBehind f c rest = _
  rw [hbehind]
  rfl

theorem readPiece_escaped {c : Char} (hc : isMeta c = true) (rest : List Char) :
    readPiece f ('\\' :: c :: rest) = some (.expr (charExpr f c), rest) := by
  simp only [isMeta, List.contains_iff_mem, List.mem_cons, List.not_mem_nil, or_false] at hc
  rcases hc with rfl | rfl | rfl | rfl | rfl | rfl | rfl | rfl | rfl | rfl | rfl | rfl | rfl | rfl |
    rfl | rfl | rfl | rfl <;> rfl

/-- In any expression that is not verbose, a plain text becomes items, one for each character. -/
theorem Plain.exists_readFrom (h : Plain f s rs) (hverbose : f.verbose = false)
    (hgreed : f.swapGreed = false) (ht : ∀ rest, t ≠ '?' :: rest) {st : State}
    (hst : st.flags = f) :
    ∃ k ≤ s.length, ∀ n, readFrom (k + n) st (s ++ t) =
      readFrom n { st with items := (rs.map Item.expr).reverse ++ st.items } t := by
  have hpiece : ∀ {st : State} {s rest : List Char} {p : Piece} {n : Nat}, st.flags = f →
      readPiece f s = some (p, rest) →
        readFrom (n + 1) st s = (st.take? p).bind fun st => readFrom n st rest := by
    rintro st s rest p n rfl hread
    refine readFrom_of_readPiece ?_ n
    rw [skip, hverbose]
    exact hread
  -- one character, and the items behind it
  have hpush : ∀ {c : Char} {s rest : List Char} {rs : List Regex} {st : State} {k : Nat},
      st.flags = f → readPiece f s = some (.expr (charExpr f c), rest) →
      (∀ n, readFrom (k + n) (st.push (charExpr f c)) rest = readFrom n
        { st.push (charExpr f c) with
          items := (rs.map Item.expr).reverse ++ (st.push (charExpr f c)).items } t) →
        ∀ n, readFrom (k + 1 + n) st s = readFrom n
          { st with items := ((charExpr f c :: rs).map Item.expr).reverse ++ st.items } t := by
    intro c s rest rs st k hst hchar hread n
    rw [Nat.add_right_comm, hpiece hst hchar]
    refine (hread n).trans ?_
    simp [State.push]
  induction h generalizing st with
  | nil => exact ⟨0, Nat.le_refl 0, fun n => by rw [Nat.zero_add]; rfl⟩
  | @char c rest rs hc h ih =>
    obtain ⟨k, hk, hread⟩ := @ih (st.push (charExpr f c)) hst
    exact ⟨k + 1, Nat.succ_le_succ hk, hpush hst (readPiece_char hc _) hread⟩
  | @escaped c rest rs hc h ih =>
    obtain ⟨k, hk, hread⟩ := @ih (st.push (charExpr f c)) hst
    refine ⟨k + 1, ?_, hpush hst (readPiece_escaped hc _) hread⟩
    simp only [List.length_cons]
    omega
  | @spaces rest rs h ih =>
    obtain ⟨k, hk, hread⟩ := @ih (st.push (.repeated (charExpr f ' ') 1 none true)) hst
    have hspace : readPiece f (' ' :: '+' :: (rest ++ t)) =
        some (.expr (charExpr f ' '), '+' :: (rest ++ t)) := readPiece_char (by decide) _
    have hplus : readPiece f ('+' :: (rest ++ t)) = some (.again 1 none true, rest ++ t) := by
      show repetition 1 none (rest ++ t) = _
      rw [repetition, onChar_of_ne (h.append_ne_mark ht)]
      rfl
    have hpushed : (st.push (charExpr f ' ')).flags = f := hst
    have htake : (st.push (charExpr f ' ')).take? (.again 1 none true) =
        some (st.push (.repeated (charExpr f ' ') 1 none true)) := by
      simp [State.take?, State.repeatLast?, State.push, hst, hgreed]
    refine ⟨k + 2, ?_, fun n => ?_⟩
    · simp only [List.length_cons]
      omega
    · rw [show k + 2 + n = k + n + 1 + 1 by omega, List.cons_append, List.cons_append,
        hpiece hst hspace, State.take?, Option.bind_some, hpiece hpushed hplus, htake,
        Option.bind_some, hread]
      simp [State.push]

/-- Alone, a plain text is read to its end, without any other effect. -/
theorem Plain.readState?_eq (h : Plain {} s rs) :
    readState? s = some { items := (rs.map Item.expr).reverse } := by
  have hempty : ({} : State).flags = {} := rfl
  have hend : ∀ rest, [] ≠ '?' :: rest := by simp
  obtain ⟨k, hk, hread⟩ := h.exists_readFrom rfl rfl hend hempty
  rw [List.append_nil] at hread
  rw [readState?, show s.length + 1 = k + (s.length - k + 1) by omega, hread,
    readFrom_of_skip (skip_nil _)]
  simp

end Plain

end Parley.Regex
