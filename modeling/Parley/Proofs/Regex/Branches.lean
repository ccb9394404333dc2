import Parley.Proofs.Regex.Alternatives
import Parley.Proofs.Regex.Endings
import Parley.Proofs.Regex.Ways

/-!
# The branches of an alternation

Expressions that are read as the alternatives of one each become a branch of it, in a group of its
own. The groups inside of a branch are numbered behind that group, in the order in which they are
numbered alone. A branch is a sequence if the expression alone is one, and then a space at its start
or its end stays a part of that sequence.

Main results:

* `State.Inside.takeAll?` — what pieces do inside of another state, they do alone, with groups that
  are numbered behind those of the other state;
* `State.Between.exists_branch` — one branch;
* `branches_of_readState?` — all branches of an alternation.
-/

namespace Parley.Regex

open Text

/-! ## Numbers of groups -/

/-- Whether the groups of an expression have numbers above a given one. -/
def Above (k : Nat) (r : Regex) : Prop := ∀ g ∈ r.groupIndices, k < g

/-- The groups of a sequence are those of its parts. -/
theorem groupIndices_catAll (rs : List Regex) :
    (catAll rs).groupIndices = rs.flatMap groupIndices := by
  induction rs using catAll.induct with
  | case1 => rfl
  | case2 r => simp [catAll]
  | case3 r rest hrest ih => simp [catAll, groupIndices, ih]

/-- The groups of alternatives are those of each of them. -/
theorem groupIndices_altAll (rs : List Regex) :
    (altAll rs).groupIndices = rs.flatMap groupIndices := by
  induction rs using altAll.induct with
  | case1 => rfl
  | case2 r => simp [altAll]
  | case3 r rest hrest ih => simp [altAll, groupIndices, ih]

/-- The same for an item. -/
def Item.Above (k : Nat) : Item → Prop
  | .expr r => Regex.Above k r
  | .switch => True

/-- The expression that an item is. -/
def Item.expression? : Item → Option Regex
  | .expr r => some r
  | .switch => none

/-- The expressions among items, which come last first. -/
def expressions (items : List Item) : List Regex := items.reverse.filterMap Item.expression?

/-- Flags among the items of a sequence count for nothing. -/
theorem sequence_eq (items : List Item) : sequence items = catAll (expressions items) := by
  refine congrArg (fun h => catAll (items.reverse.filterMap h)) (funext fun i => ?_)
  cases i <;> rfl

/-- A sequence has its groups where its items have theirs. -/
theorem above_sequence {k : Nat} {items : List Item} (h : ∀ i ∈ items, i.Above k) :
    Above k (sequence items) := by
  intro g hg
  rw [sequence_eq, groupIndices_catAll] at hg
  obtain ⟨r, hr, hg⟩ := List.mem_flatMap.1 hg
  obtain ⟨i, hi, hexpr⟩ := List.mem_filterMap.1 hr
  have habove := h i (List.mem_reverse.1 hi)
  cases i with
  | expr q =>
    obtain rfl := Option.some.inj hexpr
    exact habove g hg
  | switch => cases hexpr

/-- A piece whose expression, if it is one, has no groups. -/
def Piece.Groupless : Piece → Prop
  | .expr r => r.groupIndices = []
  | _ => True

/-- A character is no group. -/
theorem groupIndices_charExpr (f : Flags) (c : Char) : (charExpr f c).groupIndices = [] := by
  unfold charExpr
  split
  · split <;> rfl
  · rfl

/-- No piece is read as a group at once: groups are opened and closed. -/
theorem groupless_of_readPiece {f : Flags} {s r : List Char} {p : Piece}
    (h : readPiece f s = some (p, r)) : p.Groupless := by
  cases s with
  | nil => cases h
  | cons c rest =>
    change pieceBehind f c rest = _ at h
    have hagain : ∀ {min max? m}, repetition min max? m = some (p, r) → p.Groupless := by
      intro min max? m h
      obtain ⟨greedy, rfl⟩ := eq_again_of_repetition h
      trivial
    -- one case for each character that a piece can begin with
    unfold pieceBehind at h
    split at h
    · obtain ⟨q, -, heq⟩ := Option.map_eq_some_iff.1 h
      exact (Prod.mk.inj heq).1 ▸ trivial
    · exact (Prod.mk.inj (Option.some.inj h)).1 ▸ trivial
    · exact (Prod.mk.inj (Option.some.inj h)).1 ▸ trivial
    · obtain ⟨q, -, heq⟩ := Option.map_eq_some_iff.1 h
      exact (Prod.mk.inj heq).1 ▸ rfl
    · exact hagain h
    · exact hagain h
    · exact hagain h
    · obtain ⟨q, -, h⟩ := Option.bind_eq_some_iff.1 h
      obtain ⟨q', -, h⟩ := Option.bind_eq_some_iff.1 h
      exact hagain h
    · obtain ⟨⟨a, m⟩, -, heq⟩ := Option.map_eq_some_iff.1 h
      obtain ⟨rfl, -⟩ := Prod.mk.inj heq
      cases a with
      | literal d => exact groupIndices_charExpr f d
      | set s => rfl
      | look l => rfl
    · obtain ⟨q, hq, heq⟩ := Option.map_eq_some_iff.1 h
      obtain ⟨d, hd, rfl⟩ := Option.map_eq_some_iff.1 hq
      obtain ⟨rfl, -⟩ := Prod.mk.inj heq
      unfold dotExpr? at hd
      split at hd
      · cases hd
      · split at hd
        · exact Option.some.inj hd ▸ rfl
        · split at hd <;> exact Option.some.inj hd ▸ rfl
    · exact (Prod.mk.inj (Option.some.inj h)).1 ▸ rfl
    · exact (Prod.mk.inj (Option.some.inj h)).1 ▸ rfl
    · exact (Prod.mk.inj (Option.some.inj h)).1 ▸ groupIndices_charExpr f _

/-- The pieces that a text spells are no groups. -/
theorem groupless_of_spells {fs : List Flags} {s : List Char} {ps : List Piece}
    (h : Spells fs s ps) : ∀ p ∈ ps, p.Groupless := by
  induction h with
  | nil _ => exact fun _ hp => absurd hp List.not_mem_nil
  | cons hpiece _ ih =>
    intro p hp
    rcases List.mem_cons.1 hp with rfl | hp
    · exact groupless_of_readPiece (hpiece [])
    · exact ih p hp

/-! ## States inside of others -/

/-- Whether two groups have equally many alternatives, and in the second one all groups have numbers
above a given one. -/
structure OpenGroup.Inside (k : Nat) (a b : OpenGroup) : Prop where
  bars : a.alternatives.length = b.alternatives.length
  index : ∀ g ∈ b.index?, k < g
  alternatives : ∀ r ∈ b.alternatives, Above k r
  items : ∀ i ∈ b.items, i.Above k

/-- The group that a state is in. -/
def State.innermost (st : State) : OpenGroup :=
  { index? := none, flags := st.flags, alternatives := st.alternatives, items := st.items }

/-- Whether one state is another one inside of a third, with its groups numbered behind those of the
third. -/
structure State.Inside (base st st' : State) : Prop where
  innermost : OpenGroup.Inside base.groups st.innermost st'.innermost
  outer : ∃ groups, List.Forall₂ (OpenGroup.Inside base.groups) st.outer groups ∧
    st'.outer = groups ++ base.outer
  groups : st'.groups = base.groups + st.groups

/-- At the start, nothing has been read on either side. -/
theorem OpenGroup.Inside.empty (k : Nat) (f g : Flags) :
    OpenGroup.Inside k ⟨none, f, [], []⟩ ⟨none, g, [], []⟩ where
  bars := rfl
  index := fun _ h => by cases h
  alternatives := fun _ h => absurd h List.not_mem_nil
  items := fun _ h => absurd h List.not_mem_nil

/-- One item more. -/
theorem OpenGroup.Inside.cons {k : Nat} {f g : Flags} {as as' : List Regex} {is is' : List Item}
    {index? index?' : Option Nat}
    (h : OpenGroup.Inside k ⟨index?, f, as, is⟩ ⟨index?', g, as', is'⟩)
    (f' g' : Flags) {js : List Item} {i : Item} (hi : i.Above k) :
    OpenGroup.Inside k ⟨none, f', as, js⟩ ⟨none, g', as', i :: is'⟩ where
  bars := h.bars
  index := fun _ h => by cases h
  alternatives := h.alternatives
  items := List.forall_mem_cons.2 ⟨hi, h.items⟩

/-- The group as one expression. -/
theorem OpenGroup.Inside.above_group {k : Nat} {st st' : State}
    (h : OpenGroup.Inside k st.innermost st'.innermost) : Above k st'.group := by
  intro g hg
  rw [State.group, groupIndices_altAll] at hg
  obtain ⟨r, hr, hg⟩ := List.mem_flatMap.1 hg
  rcases List.mem_cons.1 (List.mem_reverse.1 hr) with rfl | hr
  · exact above_sequence h.items g hg
  · exact h.alternatives r hr g hg

namespace State.Inside

variable {base st st' st₁ st₁' : State}

/-- A group that is opened gets a number above those of the state around. -/
theorem openGroup (h : base.Inside st st') {index? index?' : Option Nat} {f g : Flags}
    (hindex : ∀ g ∈ index?', base.groups < g) :
    base.Inside (st.openGroup index? f) (st'.openGroup index?' g) where
  innermost := .empty _ _ _
  outer := by
    obtain ⟨groups, hgroups, houter⟩ := h.outer
    refine ⟨⟨index?', st'.flags, st'.alternatives, st'.items⟩ :: groups, .cons ?_ hgroups, ?_⟩
    · exact ⟨h.innermost.bars, hindex, h.innermost.alternatives, h.innermost.items⟩
    · exact congrArg _ houter
  groups := h.groups

/-- A group that is closed becomes an item of the one around it. -/
theorem closeGroup? (h : base.Inside st st') (hclose : st.closeGroup? = some st₁)
    (hclose' : st'.closeGroup? = some st₁') : base.Inside st₁ st₁' := by
  obtain ⟨groups, hgroups, houter⟩ := h.outer
  rw [State.closeGroup?] at hclose
  split at hclose
  · cases hclose
  · next g outer hst =>
    rw [hst] at hgroups
    obtain ⟨g', groups', hg, hgroups', rfl⟩ := List.forall₂_cons_left_iff.1 hgroups
    rw [State.closeGroup?, houter] at hclose'
    obtain rfl := Option.some.inj hclose
    obtain rfl := Option.some.inj hclose'
    refine ⟨hg.cons _ _ ?_, ⟨groups', hgroups', rfl⟩, h.groups⟩
    -- the group that is closed has no number, or one above those of the state around it
    have hbody := h.innermost.above_group
    cases hindex : g'.index? with
    | none => exact hbody
    | some i => exact List.forall_mem_cons.2 ⟨hg.index i hindex, hbody⟩

/-- A repetition has the groups of what it repeats. -/
theorem repeatLast? (h : base.Inside st st') {min : Nat} {max? : Option Nat} {greedy : Bool}
    (hrepeat : st.repeatLast? min max? greedy = some st₁)
    (hrepeat' : st'.repeatLast? min max? greedy = some st₁') : base.Inside st₁ st₁' := by
  have hitems := h.innermost.items
  rw [State.repeatLast?] at hrepeat hrepeat'
  split at hrepeat
  · split at hrepeat'
    · next hst' =>
      obtain rfl := Option.some.inj hrepeat
      obtain rfl := Option.some.inj hrepeat'
      -- only the last item changes, and it keeps its groups
      change ∀ i ∈ st'.items, _ at hitems
      rw [hst'] at hitems
      obtain ⟨hfirst, hrest⟩ := List.forall_mem_cons.1 hitems
      refine ⟨⟨h.innermost.bars, fun _ hg => (by cases hg), h.innermost.alternatives, ?_⟩, h.outer,
        h.groups⟩
      exact List.forall_mem_cons.2 ⟨hfirst, hrest⟩
    · cases hrepeat'
  · cases hrepeat

/-- What a piece does to a state it does inside of another one. -/
theorem take? (h : base.Inside st st') {p q : Piece} (hpq : p.Alike q) (hq : q.Groupless)
    (htake : st.take? p = some st₁) (htake' : st'.take? q = some st₁') : base.Inside st₁ st₁' := by
  -- a group is counted before it is opened, which changes nothing else
  have hcounted : ∀ names names', base.Inside { st with groups := st.groups + 1, names }
      { st' with groups := st'.groups + 1, names := names' } := fun names names' =>
    ⟨h.innermost, h.outer, congrArg (· + 1) h.groups⟩
  have hindex : ∀ g ∈ some (st'.groups + 1), base.groups < g := by
    intro g hg
    obtain rfl := Option.some.inj hg
    rw [h.groups]
    omega
  cases hpq with
  | opening ho =>
    cases ho with
    | capture =>
      obtain rfl := Option.some.inj htake
      obtain rfl := Option.some.inj htake'
      exact (hcounted st.names st'.names).openGroup hindex
    | named name =>
      rw [State.take?] at htake htake'
      split at htake
      · cases htake
      · split at htake'
        · cases htake'
        · obtain rfl := Option.some.inj htake
          obtain rfl := Option.some.inj htake'
          exact (hcounted _ _).openGroup hindex
    | plain hflags =>
      obtain rfl := Option.some.inj htake
      obtain rfl := Option.some.inj htake'
      exact h.openGroup fun _ hg => by cases hg
    | switch hflags =>
      obtain rfl := Option.some.inj htake
      obtain rfl := Option.some.inj htake'
      exact ⟨h.innermost.cons _ _ trivial, h.outer, h.groups⟩
  | close => exact h.closeGroup? htake htake'
  | bar =>
    obtain rfl := Option.some.inj htake
    obtain rfl := Option.some.inj htake'
    -- the sequence in front of the bar becomes an alternative on both sides
    refine ⟨⟨congrArg (· + 1) h.innermost.bars, fun _ hg => (by cases hg), ?_, ?_⟩, h.outer,
      h.groups⟩
    · exact List.forall_mem_cons.2 ⟨above_sequence h.innermost.items, h.innermost.alternatives⟩
    · exact fun _ hi => absurd hi List.not_mem_nil
  | expr r r' =>
    obtain rfl := Option.some.inj htake
    obtain rfl := Option.some.inj htake'
    refine ⟨h.innermost.cons _ _ fun g hg => ?_, h.outer, h.groups⟩
    rw [show r'.groupIndices = [] from hq] at hg
    cases hg
  | again min max? greedy => exact h.repeatLast? htake htake'

/-- What closes a group alone does not close the one that the states are in. -/
theorem outer_ne_of_close (h : base.Inside st st') {p q : Piece} (hpq : p.Alike q)
    (htake : st.take? p = some st₁) (hq : q = .close) : st'.outer ≠ base.outer := by
  subst hq
  cases hpq
  obtain ⟨groups, hgroups, houter⟩ := h.outer
  rw [State.take?, State.closeGroup?] at htake
  intro hbase
  obtain rfl : groups = [] := by simpa [hbase] using houter
  rw [List.forall₂_nil_right_iff.1 hgroups] at htake
  cases htake

/-- Pieces that are alike keep the one state inside of the other. -/
theorem takeAll? (h : base.Inside st st') {ps qs : List Piece} {e e' : State}
    (hpq : List.Forall₂ Piece.Alike ps qs) (hqs : ∀ q ∈ qs, q.Groupless)
    (htake : st.takeAll? ps = some e) (htake' : st'.takeAll? qs = some e') : base.Inside e e' := by
  induction hpq generalizing st st' with
  | nil =>
    obtain rfl := Option.some.inj htake
    obtain rfl := Option.some.inj htake'
    exact h
  | cons hpq _ ih =>
    obtain ⟨st₁, hfirst, htake⟩ := Option.bind_eq_some_iff.1 htake
    obtain ⟨st₁', hfirst', htake'⟩ := Option.bind_eq_some_iff.1 htake'
    obtain ⟨hq, hqs⟩ := List.forall_mem_cons.1 hqs
    exact ih (h.take? hpq hq hfirst hfirst') hqs htake htake'

end State.Inside

/-! ## The first item -/

/-- Whether an item is and stays the first one in the group around the groups below which a state
is, or that group has more alternatives than one. Only the last item can be repeated, so that there
must be another one behind it, or a group that is still open. -/
def State.Rooted (first : Item) (below : List OpenGroup) (st : State) : Prop :=
  (st.outer = below ∧
      (st.alternatives ≠ [] ∨ ∃ last front, st.items = last :: (front ++ [first]))) ∨
    ∃ inner g, st.outer = inner ++ g :: below ∧
      (g.alternatives ≠ [] ∨ ∃ front, g.items = front ++ [first])

section Rooted

variable {first : Item} {below : List OpenGroup} {st st' : State}

/-- A group that is opened comes behind the item. -/
theorem State.Rooted.openGroup (h : st.Rooted first below) (index? : Option Nat) (f : Flags) :
    (st.openGroup index? f).Rooted first below := by
  rcases h with ⟨rfl, hroot⟩ | ⟨inner, g, houter, hroot⟩
  · refine Or.inr ⟨[], _, rfl, hroot.imp_right ?_⟩
    rintro ⟨last, front, hitems⟩
    exact ⟨last :: front, hitems⟩
  · exact Or.inr ⟨_ :: inner, g, congrArg _ houter, hroot⟩

/-- What puts one item to the others. -/
theorem State.Rooted.cons (h : st.Rooted first below) {item : Item}
    (houter : st'.outer = st.outer) (halternatives : st'.alternatives = st.alternatives)
    (hitems : st'.items = item :: st.items) : st'.Rooted first below := by
  rcases h with ⟨rfl, hroot⟩ | ⟨inner, g, hinner, hroot⟩
  · refine Or.inl ⟨houter, ?_⟩
    rw [halternatives, hitems]
    refine hroot.imp_right ?_
    rintro ⟨last, front, hlast⟩
    exact ⟨item, last :: front, by rw [hlast]; rfl⟩
  · exact Or.inr ⟨inner, g, houter.trans hinner, hroot⟩

/-- A piece that does not leave the group leaves its first item where it is. -/
theorem State.Rooted.take? (h : st.Rooted first below) {p : Piece}
    (hclose : p = .close → st.outer ≠ below) (htake : st.take? p = some st') :
    st'.Rooted first below := by
  cases p with
  | opening o =>
    cases o with
    | capture =>
      obtain rfl := Option.some.inj htake
      have hcounted : { st with groups := st.groups + 1 }.Rooted first below := h
      exact hcounted.openGroup _ _
    | named name =>
      rw [State.take?] at htake
      split at htake
      · cases htake
      · obtain rfl := Option.some.inj htake
        have hcounted :
            { st with groups := st.groups + 1, names := name :: st.names }.Rooted first below := h
        exact hcounted.openGroup _ _
    | plain g =>
      obtain rfl := Option.some.inj htake
      exact h.openGroup _ _
    | switch g =>
      obtain rfl := Option.some.inj htake
      exact h.cons rfl rfl rfl
  | close =>
    rw [State.take?, State.closeGroup?] at htake
    -- the group around stays open, so that it is one inside that is closed
    rcases h with ⟨houter, -⟩ | ⟨inner, g, houter, hroot⟩
    · exact absurd houter (hclose rfl)
    · cases inner with
      | nil =>
        rw [houter] at htake
        obtain rfl := Option.some.inj htake
        refine Or.inl ⟨rfl, hroot.imp_right ?_⟩
        rintro ⟨front, hitems⟩
        exact ⟨_, front, congrArg _ hitems⟩
      | cons g' inner =>
        rw [houter] at htake
        obtain rfl := Option.some.inj htake
        exact Or.inr ⟨inner, g, rfl, hroot⟩
  | bar =>
    obtain rfl := Option.some.inj htake
    rcases h with ⟨houter, -⟩ | hinner
    · exact Or.inl ⟨houter, Or.inl (List.cons_ne_nil _ _)⟩
    · exact Or.inr hinner
  | expr r =>
    obtain rfl := Option.some.inj htake
    exact h.cons rfl rfl rfl
  | again min max? greedy =>
    rw [State.take?, State.repeatLast?] at htake
    split at htake
    · next hitems =>
      obtain rfl := Option.some.inj htake
      rcases h with ⟨houter, hroot⟩ | hinner
      · refine Or.inl ⟨houter, hroot.imp_right ?_⟩
        -- the item that is repeated is the last one and not the first
        rintro ⟨last, front, hlast⟩
        rw [hitems] at hlast
        exact ⟨_, front, congrArg _ (List.cons.inj hlast).2⟩
      · exact Or.inr hinner
    · cases htake

/-- The item becomes the first one when something other than its repetition follows. -/
theorem State.rooted_of_take? (houter : st.outer = below) (hitems : st.items = [first]) {p : Piece}
    (hclose : p ≠ .close) (hagain : ∀ min max? greedy, p ≠ .again min max? greedy)
    (htake : st.take? p = some st') : st'.Rooted first below := by
  -- another item comes behind the first one, or a group is opened behind it
  have hcons : ∀ {i : Item}, st'.outer = st.outer → st'.items = i :: st.items →
      st'.Rooted first below := fun houter' hitems' =>
    Or.inl ⟨houter'.trans houter, Or.inr ⟨_, [], by rw [hitems', hitems]; rfl⟩⟩
  have hopen : ∀ {g : OpenGroup}, g.items = st.items → st'.outer = g :: st.outer →
      st'.Rooted first below := fun {g} hg houter' =>
    Or.inr ⟨[], g, by rw [houter', houter]; rfl, Or.inr ⟨[], hg.trans hitems⟩⟩
  cases p with
  | opening o =>
    cases o with
    | capture =>
      obtain rfl := Option.some.inj htake
      exact hopen rfl rfl
    | named name =>
      rw [State.take?] at htake
      split at htake
      · cases htake
      · obtain rfl := Option.some.inj htake
        exact hopen rfl rfl
    | plain g =>
      obtain rfl := Option.some.inj htake
      exact hopen rfl rfl
    | switch g =>
      obtain rfl := Option.some.inj htake
      exact hcons rfl rfl
  | close => exact absurd rfl hclose
  | bar =>
    obtain rfl := Option.some.inj htake
    exact Or.inl ⟨houter, Or.inl (List.cons_ne_nil _ _)⟩
  | expr r =>
    obtain rfl := Option.some.inj htake
    exact hcons rfl rfl
  | again min max? greedy => exact absurd rfl (hagain min max? greedy)

/-- Pieces that can be taken alone do not leave the group that they are taken in. -/
theorem State.Rooted.takeAll? {base alone e e' : State} (h : st.Rooted first base.outer)
    (hinside : base.Inside alone st) {ps qs : List Piece} (hpq : List.Forall₂ Piece.Alike ps qs)
    (hqs : ∀ q ∈ qs, q.Groupless) (htake : alone.takeAll? ps = some e)
    (htake' : st.takeAll? qs = some e') : e'.Rooted first base.outer := by
  induction hpq generalizing alone st with
  | nil =>
    obtain rfl := Option.some.inj htake'
    exact h
  | cons hpq _ ih =>
    obtain ⟨alone₁, hfirst, htake⟩ := Option.bind_eq_some_iff.1 htake
    obtain ⟨st₁, hfirst', htake'⟩ := Option.bind_eq_some_iff.1 htake'
    obtain ⟨hq, hqs⟩ := List.forall_mem_cons.1 hqs
    refine ih (h.take? ?_ hfirst') (hinside.take? hpq hq hfirst hfirst') hqs htake htake'
    exact hinside.outer_ne_of_close hpq hfirst

end Rooted

/-! ## Flags -/

/-- Alike pieces leave alike flags, and those below untouched. -/
theorem State.exists_stack_takeAll? {ps qs : List Piece} (hpq : List.Forall₂ Piece.Alike ps qs)
    {st st' e e' : State} {gs below : List Flags} (halike : List.Forall₂ Flags.Alike st.stack gs)
    (hst' : st'.stack = gs ++ below) (htake : st.takeAll? ps = some e)
    (htake' : st'.takeAll? qs = some e') :
    ∃ hs, List.Forall₂ Flags.Alike e.stack hs ∧ e'.stack = hs ++ below := by
  induction hpq generalizing st st' gs with
  | nil =>
    obtain rfl := Option.some.inj htake
    obtain rfl := Option.some.inj htake'
    exact ⟨gs, halike, hst'⟩
  | cons hpq _ ih =>
    obtain ⟨st₁, hfirst, htake⟩ := Option.bind_eq_some_iff.1 htake
    obtain ⟨st₁', hfirst', htake'⟩ := Option.bind_eq_some_iff.1 htake'
    -- the flags of the state below are out of reach as long as there are flags above them
    have hgs : gs ≠ [] := by
      rintro rfl
      cases halike
    have hshift := hpq.shift halike
    rw [← State.stack_take? hfirst] at hshift
    refine ih hshift ?_ htake htake'
    rw [State.stack_take? hfirst', hst', Piece.shift_append hgs]

/-! ## Branches -/

/-- Whether an expression is what the pieces of a text come to inside of the group with a number.
They are alike to the pieces of the text alone. -/
def IsBody (s : List Char) (e : State) (g : Nat) (body : Regex) : Prop :=
  ∃ (st e' : State) (ps qs : List Piece), st.Between ∧ st.groups + 1 = g ∧
    State.takeAll? {} ps = some e ∧ List.Forall₂ Piece.Alike ps qs ∧
    Spells [caseless, caseless] s qs ∧ st.opened.takeAll? qs = some e' ∧ e'.group = body

/-- What is known of the branch for an expression that is read alone: its groups have numbers above
its own, and if it is one sequence, spaces at its ends are parts of that. -/
structure IsBranch (s : List Char) (e : State) (g : Nat) (body : Regex) : Prop where
  read : IsBody s e g body
  above : Above g body
  start : ∀ {s'}, s = ' ' :: s' → (∀ c ∈ s'.head?, isRepetition c = false) →
    e.alternatives = [] → ∃ rs, body = catAll (charExpr caseless ' ' :: rs)
  stop : s.getLast? = some ' ' → e.flags.verbose = false → e.alternatives = [] →
    ∃ rs f, body = catAll (rs ++ [charExpr f ' '])

/-- The first piece of a text with a space in front, and what can come second. -/
theorem Spells.exists_of_space {s : List Char} {ps : List Piece}
    (h : Spells [caseless, caseless] (' ' :: s) ps)
    (hs : ∀ c ∈ s.head?, isRepetition c = false) :
    ∃ ps', ps = .expr (charExpr caseless ' ') :: ps' ∧
      ∀ p ∈ ps'.head?, ∀ min max? greedy, p ≠ .again min max? greedy := by
  cases h with
  | nil h => exact absurd (List.cons.inj (h [])).1 (by decide)
  -- the space is a piece of its own, and what stands behind it is no repetition
  | @cons _ _ _ r p ps' h hrest =>
    have hspace : readPiece caseless (' ' :: (s ++ [')'])) =
        some (.expr (charExpr caseless ' '), s ++ [')']) := rfl
    obtain ⟨rfl, hr⟩ := Prod.mk.inj (Option.some.inj (hspace.symm.trans (h [])))
    obtain rfl := List.append_cancel_right hr
    refine ⟨ps', rfl, fun q hq min max? greedy hagain => ?_⟩
    cases hrest with
    | nil _ => cases hq
    | @cons _ _ _ r p ps' h _ =>
      obtain rfl := Option.some.inj hq
      subst hagain
      cases s with
      | nil =>
        have hclose : readPiece caseless [')'] = some (.close, []) := rfl
        cases (Prod.mk.inj (Option.some.inj (hclose.symm.trans (h [])))).1
      | cons c s =>
        have hrepetition := isRepetition_of_readPiece (s := s ++ [')']) (h [])
        rw [hs c rfl] at hrepetition
        cases hrepetition

/-- A space at the start of a text is the first item of what the text is read as. -/
theorem State.exists_items_of_space {base e e' : State} {ps qs : List Piece} {s : List Char}
    (hbase : base.items = []) (hinside : base.Inside {} base)
    (hpq : List.Forall₂ Piece.Alike ps qs) (hspells : Spells [caseless, caseless] (' ' :: s) qs)
    (hs : ∀ c ∈ s.head?, isRepetition c = false) (htake : State.takeAll? {} ps = some e)
    (htake' : base.takeAll? qs = some e') (houter : e'.outer = base.outer)
    (hbars : e'.alternatives = []) :
    ∃ front, e'.items = front ++ [.expr (charExpr caseless ' ')] := by
  have hqs := groupless_of_spells hspells
  obtain ⟨qs, rfl, hsecond⟩ := hspells.exists_of_space hs
  obtain ⟨p, ps, hp, hrest, rfl⟩ := List.forall₂_cons_right_iff.1 hpq
  obtain ⟨alone, hfirst, htake⟩ := Option.bind_eq_some_iff.1 htake
  obtain ⟨hq, hqs⟩ := List.forall_mem_cons.1 hqs
  have hpush : base.take? (.expr (charExpr caseless ' ')) =
      some (base.push (charExpr caseless ' ')) := rfl
  have hinside := hinside.take? hp hq hfirst hpush
  have hitems : (base.push (charExpr caseless ' ')).items = [.expr (charExpr caseless ' ')] :=
    congrArg _ hbase
  have houter₁ : (base.push (charExpr caseless ' ')).outer = base.outer := rfl
  change (base.push (charExpr caseless ' ')).takeAll? qs = some e' at htake'
  -- the space is the only piece, or the next one neither closes the group nor repeats the space
  cases hrest with
  | nil =>
    obtain rfl := Option.some.inj htake'
    exact ⟨[], hitems⟩
  | @cons p q ps qs hp hrest =>
    obtain ⟨alone', hfirst, htake⟩ := Option.bind_eq_some_iff.1 htake
    obtain ⟨st, hfirst', htake'⟩ := Option.bind_eq_some_iff.1 htake'
    obtain ⟨hq, hqs⟩ := List.forall_mem_cons.1 hqs
    have hrooted : st.Rooted (.expr (charExpr caseless ' ')) base.outer :=
      State.rooted_of_take? houter₁ hitems
        (fun hclose => hinside.outer_ne_of_close hp hfirst hclose rfl) (hsecond q rfl) hfirst'
    rcases hrooted.takeAll? (hinside.take? hp hq hfirst hfirst') hrest hqs htake htake' with
      ⟨-, hroot⟩ | ⟨inner, g, hinner, -⟩
    · rcases hroot with hne | ⟨last, front, hlast⟩
      · exact absurd hbars hne
      · exact ⟨last :: front, hlast⟩
    · have hlength := congrArg List.length (houter.symm.trans hinner)
      simp only [List.length_append, List.length_cons] at hlength
      omega

/-- The first item, which is the last of the list, begins the sequence. -/
theorem sequence_append_first (front : List Item) (r : Regex) :
    sequence (front ++ [.expr r]) = catAll (r :: expressions front) := by
  simp [sequence_eq, expressions, Item.expression?]

/-- The last item ends it. -/
theorem sequence_cons_last (r : Regex) (items : List Item) :
    sequence (.expr r :: items) = catAll (expressions items ++ [r]) := by
  simp [sequence_eq, expressions, Item.expression?]

/-- Without a bar a group is one sequence. -/
theorem group_of_alternatives_eq_nil {st : State} (h : st.alternatives = []) :
    st.group = sequence st.items := by
  rw [State.group, h]
  rfl

/-- A group of an alternation becomes an item of it. -/
theorem State.Between.exists_branch {st e : State} (hst : st.Between) {s : List Char}
    (hs : readState? s = some e) (hclosed : EndsVerbose s → ¬LeavesOpen [caseless, caseless] s)
    {n : Nat} (hn : s.length + 2 ≤ n) {t : List Char} {final : State}
    (h : readFrom n st ('(' :: (s ++ ')' :: t)) = some final) :
    ∃ body n' st', IsBranch s e (st.groups + 1) body ∧ st'.Between ∧
      st'.groups = st.groups + 1 + e.groups ∧ st'.alternatives = st.alternatives ∧
      st'.items = .expr (.group (st.groups + 1) body) :: st.items ∧
      n ≤ n' + s.length + 2 ∧ readFrom n' st' t = some final := by
  obtain ⟨ps, hps, hlength, houter, hencloses⟩ := exists_encloses hs
  have hflags : List.Forall₂ Flags.Alike (State.stack {}) [caseless] := .cons ⟨true, rfl⟩ .nil
  rcases hencloses [caseless] [caseless] hflags (List.cons_ne_nil _ _) with
    ⟨qs, hqs, hspells⟩ | ⟨hverbose, hopen⟩
  · have hcount := hqs.length_eq
    have hgroupless := groupless_of_spells hspells
    obtain ⟨m, rfl⟩ := Nat.exists_eq_add_of_le' (show qs.length + 2 ≤ n by omega)
    rw [show m + (qs.length + 2) = qs.length + (m + 1) + 1 by omega,
      hst.readFrom_open (append_ne_of_readState? hs t),
      readFrom_of_spells hspells hst.stack_opened] at h
    obtain ⟨e', he', h⟩ := Option.bind_eq_some_iff.1 h
    -- alone, the pieces start from nothing; here they start inside of the opened group
    have hstart : st.opened.Inside {} st.opened := ⟨.empty _ _ _, ⟨[], .nil, rfl⟩, rfl⟩
    have hinside := hstart.takeAll? hqs hgroupless hps he'
    obtain ⟨groups, hgroups, houter'⟩ := hinside.outer
    rw [houter] at hgroups
    cases hgroups
    have hbars : e.alternatives = [] → e'.alternatives = [] := fun hnil =>
      List.length_eq_zero_iff.1 (hinside.innermost.bars.symm.trans (congrArg List.length hnil))
    have hclose : ∃ st', e'.closeGroup? = some st' ∧ st'.flags = st.flags ∧
        st'.outer = st.outer ∧ st'.alternatives = st.alternatives ∧
        st'.items = .expr (.group (st.groups + 1) e'.group) :: st.items ∧
        st'.groups = e'.groups ∧ st'.names = e'.names := by
      rw [State.closeGroup?, houter']
      exact ⟨_, rfl, rfl, rfl, rfl, rfl, rfl, rfl⟩
    obtain ⟨st', hclose, hst'flags, hst'outer, hst'alternatives, hst'items, hst'groups, hnames⟩ :=
      hclose
    rw [readFrom_close hclose] at h
    refine ⟨e'.group, m, st', ?_, ⟨hst'flags.trans hst.flags, hst'outer.trans hst.outer, ?_⟩,
      hst'groups.trans hinside.groups, hst'alternatives, hst'items, by omega, h⟩
    · refine ⟨⟨st, e', ps, qs, hst, rfl, hps, hqs, hspells, he', rfl⟩,
        hinside.innermost.above_group, ?_, ?_⟩
      · rintro s' rfl hs' hnil
        obtain ⟨front, hfront⟩ := State.exists_items_of_space rfl hstart hqs hspells hs' hps he'
          houter' (hbars hnil)
        rw [group_of_alternatives_eq_nil (hbars hnil), hfront, sequence_append_first]
        exact ⟨_, rfl⟩
      · intro hlast hverbose hnil
        obtain ⟨hs, halike, hstack⟩ :=
          State.exists_stack_takeAll? hqs hflags hst.stack_opened hps he'
        obtain ⟨g, gs, hg, -, rfl⟩ := List.forall₂_cons_left_iff.1 halike
        obtain ⟨b, rfl⟩ := hg
        have hverbose' : e'.flags.verbose = false := by
          rw [(List.cons.inj hstack).1]
          exact hverbose
        obtain ⟨st'', hpush⟩ := hspells.exists_push hst.stack_opened he' hverbose' hlast
        rw [group_of_alternatives_eq_nil (hbars hnil), hpush]
        exact ⟨_, _, sequence_cons_last _ st''.items⟩
    · rw [hnames]
      exact (State.names_takeAll? he').2 hst.names
  · exact absurd hopen (hclosed ⟨e, hs, hverbose⟩)

/-- Whether expressions are branches for texts, one for each, in groups that are numbered behind
`k`. -/
inductive Branches : Nat → List (List Char) → List Regex → Prop where
  | nil {k : Nat} : Branches k [] []
  | cons {k : Nat} {s : List Char} {e : State} {body : Regex} {texts : List (List Char)}
    {rs : List Regex} (hs : readState? s = some e) (hbody : IsBranch s e (k + 1) body)
    (hrest : Branches (k + 1 + e.groups) texts rs) :
    Branches k (s :: texts) (.group (k + 1) body :: rs)

/-- Every text of an alternation becomes a branch of it. -/
theorem State.Between.exists_branches {st : State} (hst : st.Between) {texts : List (List Char)}
    (hread : ∀ s ∈ texts, (readState? s).isSome)
    (hclosed : ∀ s ∈ texts, EndsVerbose s → ¬LeavesOpen [caseless, caseless] s)
    (hitems : expressions st.items = []) (htexts : texts ≠ []) {n : Nat}
    (hn : (grouped texts).length < n) {final : State}
    (h : readFrom n st (grouped texts) = some final) :
    ∃ rs, Branches st.groups texts rs ∧ final.group = altAll (st.alternatives.reverse ++ rs) := by
  induction texts generalizing st n with
  | nil => exact absurd rfl htexts
  | cons s texts ih =>
    obtain ⟨e, he⟩ := Option.isSome_iff_exists.1 (hread s List.mem_cons_self)
    rw [grouped_cons] at hn h
    simp only [List.length_cons, List.length_append] at hn
    obtain ⟨body, m, st', hbody, hst', hgroups, halternatives, hst'items, hm, h⟩ :=
      hst.exists_branch he (hclosed s List.mem_cons_self) (by omega) h
    have hsequence : sequence st'.items = .group (st.groups + 1) body := by
      rw [hst'items, sequence_cons_last, hitems]
      rfl
    -- behind the last text nothing is left, behind the others there is a bar
    by_cases hnil : texts = []
    · subst hnil
      obtain ⟨rfl, -⟩ := eq_of_readFrom_nil h
      refine ⟨[.group (st.groups + 1) body], .cons he hbody .nil, ?_⟩
      rw [State.group, hsequence, halternatives, List.reverse_cons]
    · rw [barred, if_neg hnil] at hn h
      rw [List.length_cons] at hn
      obtain ⟨m, rfl⟩ := Nat.exists_eq_add_of_lt (show 0 < m by omega)
      rw [hst'.readFrom_bar] at h
      obtain ⟨rs, hrs, hfinal⟩ := ih hst'.bar (fun t ht => hread t (List.mem_cons_of_mem s ht))
        (fun t ht => hclosed t (List.mem_cons_of_mem s ht)) rfl hnil (by omega) h
      refine ⟨.group (st.groups + 1) body :: rs, .cons he hbody ?_, ?_⟩
      · rw [← hgroups]
        exact hrs
      · rw [hfinal, State.bar, hsequence, halternatives, List.reverse_cons, List.append_assoc]
        rfl

/-- Texts that can be read alone are read together as branches, one for each. -/
theorem branches_of_readState? {texts : List (List Char)} (htexts : texts ≠ [])
    (hread : ∀ s ∈ texts, (readState? s).isSome)
    (hsingle : ∀ s ∈ texts, EndsVerbose s → (readState? (alternation [s])).isSome) {e : State}
    (h : readState? (alternation texts) = some e) :
    ∃ rs, Branches 0 texts rs ∧ e.group = altAll rs := by
  rw [readState?_alternation] at h
  exact between_start.exists_branches hread
    (fun s hs hverbose => not_leavesOpen_of_readState? (hread s hs) (hsingle s hs hverbose)) rfl
    htexts (by omega) h

end Parley.Regex
