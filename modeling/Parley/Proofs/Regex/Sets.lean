import Mathlib.Data.List.Forall2
import Parley.Proofs.Regex.Escapes

/-!
# Bracketed sets in front of a closing parenthesis

A bracketed set ends at its last bracket, so something is left wherever a part of it has been read.
Comments therefore do not matter here: a set that is read alone is read in parentheses as well, and
leaves the same.
Main results: `agreesAt_readAsciiClass` for named classes, `embeds_readSetItem` for one item, and
`finishesSet_of_readSet` for whole sets.
-/

namespace Parley.Regex

open Text

section Sets

variable {f g : Flags}

/-! ## The start of a set -/

/-- Reading the hyphens at the start of a set, or else a closing bracket. -/
def setHyphens (f : Flags) (negated : Bool) : Reader PartialSet :=
  andThen (digits f (· == '-')) fun hyphens =>
    if hyphens = [] then
      onChar ']' (skippingAfter f (some { negated, items := [.char ']'] }))
        (leave? (some { negated, items := [] }))
    else leave? (some { negated, items := hyphens.map .char })

/-- Reading how a set starts. -/
def setStart (f : Flags) : Reader PartialSet :=
  andThen (skipping f) fun _ =>
    andThen (onChar '^' (skippingAfter f (some true)) (leave? (some false))) (setHyphens f)

/-- The hyphens that a set may start with, and the bracket that then is an element. -/
theorem setHyphens_eq (f : Flags) (negated : Bool) (s : List Char) :
    setHyphens f negated s =
      some (match (readDigits f (· == '-') s).1.map CharSet.char, (readDigits f (· == '-') s).2 with
        | [], ']' :: s => ({ negated, items := [.char ']'] }, skip f s)
        | items, s => ({ negated, items }, s)) := by
  show (if (readDigits f (· == '-') s).1 = [] then (_ : Reader PartialSet) else _)
    (readDigits f (· == '-') s).2 = _
  generalize readDigits f (· == '-') s = p
  obtain ⟨hyphens, m⟩ := p
  cases hyphens with
  | nil =>
    rw [if_pos rfl, List.map_nil]
    dsimp only
    -- a bracket that comes first is a character of the set
    split
    · rw [onChar_cons]
      rfl
    · next h =>
      rw [onChar_of_ne fun rest hm => h rest rfl hm]
      rfl
  | cons c cs =>
    rw [if_neg (List.cons_ne_nil c cs)]
    rfl

/-- The start of a set, read in one go. -/
theorem setStart_eq (f : Flags) (s : List Char) : setStart f s = some (openSet f s) := by
  show (onChar '^' _ _ (skip f s)).bind _ = _
  unfold openSet
  generalize skip f s = m
  cases m with
  | nil => exact setHyphens_eq f false []
  | cons c rest =>
    by_cases hc : c = '^'
    · subst hc
      exact setHyphens_eq f true (skip f rest)
    · have hne : ∀ rest', c :: rest = '^' :: rest' → False := fun rest' h => hc (List.cons.inj h).1
      rw [onChar_of_ne hne]
      simp only
      exact setHyphens_eq f false (c :: rest)

/-- The start of a set is read alike in a group. -/
theorem embeds_setStart (halike : f.Alike g) :
    Embeds f.verbose Eq (setStart f) (setStart g) := by
  refine (embeds_skipping halike).andThen_of_eq fun _ => ?_
  refine Embeds.andThen_of_eq ?_ fun negated => ?_
  · exact embeds_onChar (by decide) (embeds_skippingAfter halike _).embedsAt
      (embeds_leave?_self _ _)
  · refine (embeds_digits halike (by decide)).andThen_of_eq fun hyphens => ?_
    refine embeds_ite ?_ (embeds_leave?_self _ _)
    exact embeds_onChar (by decide) (embeds_skippingAfter halike _).embedsAt
      (embeds_leave?_self _ _)

/-- Behind its start, a set is not at the end of the text. -/
theorem openSet_append (halike : f.Alike g) {u : List Char} (h : (openSet f u).2 ≠ [])
    (t : List Char) :
    openSet g (u ++ ')' :: t) = ((openSet f u).1, (openSet f u).2 ++ ')' :: t) := by
  obtain ⟨_, rfl, hkeeps⟩ := ((embeds_setStart halike).embedsAt u).keeps (setStart_eq f u) h
  exact Option.some.inj ((setStart_eq g _).symm.trans (hkeeps t))

/-! ## Named classes -/

/-- No class has a name with a parenthesis in it. -/
theorem asciiClass?_of_mem {name : List Char} (h : ')' ∈ name) :
    asciiClass? (String.ofList name) = none := by
  unfold asciiClass?
  split
  case h_15 => rfl
  all_goals
    next heq =>
      have hname := congrArg String.toList heq
      rw [String.toList_ofList] at hname
      rw [hname] at h
      revert h
      decide

/-- The set that the name of a class stands for. A complement may be missing. -/
def classSet? (f : Flags) (negated : Bool) (name : List Char) : Option (Option CharSet) :=
  (asciiClass? (String.ofList name)).map fun set =>
    if negated then if f.unicode then some (.compl (foldSet f set)) else none
    else some (foldSet f set)

/-- Reading the name of a class and what closes it. -/
def className (f : Flags) (negated : Bool) : Reader (Option CharSet) :=
  andThen (splitFirst [':']) fun name => onChar ']' (leave? (classSet? f negated name)) refuse

/-- A bracket without a colon begins a set and not a class. -/
theorem readAsciiClass_of_ne {s : List Char} (f : Flags) (h : ∀ rest, s = ':' :: rest → False) :
    readAsciiClass f s = none := by
  unfold readAsciiClass
  split
  · next rest => exact absurd rfl (h rest)
  · rfl

/-- The name of a class, up to its second colon and the bracket. -/
theorem className_eq (f : Flags) (negated : Bool) (s : List Char) :
    className f negated s =
      match splitFirst [':'] s with
      | some (name, ']' :: s) => (asciiClass? (String.ofList name)).map fun set =>
          let set := foldSet f set
          (if negated then if f.unicode then some (.compl set) else none else some set, s)
      | _ => none := by
  rw [className, andThen]
  cases splitFirst [':'] s with
  | none => rfl
  | some p =>
    obtain ⟨name, m⟩ := p
    rw [Option.bind_some]
    split
    · next heq =>
      obtain ⟨rfl, rfl⟩ := Prod.mk.inj (Option.some.inj heq)
      rw [onChar_cons, leave?, classSet?, Option.map_map]
      rfl
    · next hne =>
      rw [onChar_of_ne fun rest hm => hne name rest (congrArg (fun s => some (name, s)) hm)]
      rfl

/-- Behind the colon, a class may be negated. -/
theorem readAsciiClass_colon (f : Flags) (s : List Char) :
    readAsciiClass f (':' :: s) = onChar '^' (className f true) (className f false) s := by
  cases s with
  | nil => exact (className_eq f false []).symm
  | cons c rest =>
    by_cases hc : c = '^'
    · subst hc
      rw [onChar_cons]
      exact (className_eq f true rest).symm
    · have hne : ∀ rest', c :: rest = '^' :: rest' → False := fun rest' h =>
        hc (List.cons.inj h).1
      rw [onChar_of_ne hne, className_eq]
      unfold readAsciiClass
      split
      · next behind heq =>
        obtain rfl := (List.cons.inj heq).2
        -- the name begins at once, as the class is not negated
        split
        next negated s hsign =>
          split at hsign
          · next rest' hrest => exact absurd (List.cons.inj hrest).1 hc
          · obtain ⟨rfl, rfl⟩ := Prod.mk.inj hsign
            rfl
      · next hnone => exact absurd rfl (hnone _)

/-- A text without a separator gets one only behind the parenthesis. -/
theorem mem_of_splitFirst_append {separator : Char} (hseparator : separator ≠ ')') {u : List Char}
    (hu : splitFirst [separator] u = none) {t name r : List Char}
    (h : splitFirst [separator] (u ++ ')' :: t) = some (name, r)) : ')' ∈ name := by
  have hhead : ∀ c rest, [separator].isPrefixOf (c :: rest) = (separator == c) := by
    intro c rest
    rw [List.isPrefixOf_cons_cons, List.isPrefixOf_nil_left, Bool.and_true]
  induction u generalizing name with
  -- the separator can only be found behind the parenthesis
  | nil =>
    rw [List.nil_append, splitFirst, hhead, if_neg (by simpa using hseparator)] at h
    obtain ⟨p, -, heq⟩ := Option.map_eq_some_iff.1 h
    obtain ⟨rfl, -⟩ := Prod.mk.inj heq
    exact List.mem_cons_self
  | cons c u ih =>
    rw [splitFirst, hhead] at hu
    rw [List.cons_append, splitFirst, hhead] at h
    split at hu
    · cases hu
    · next hc =>
      rw [if_neg hc] at h
      obtain ⟨p, hp, heq⟩ := Option.map_eq_some_iff.1 h
      obtain ⟨rfl, rfl⟩ := Prod.mk.inj heq
      exact List.mem_cons_of_mem c (ih (Option.map_eq_none_iff.1 hu) hp)

/-- No class has a parenthesis in its name. -/
theorem classSet?_of_mem (f : Flags) (negated : Bool) {name : List Char} (h : ')' ∈ name) :
    classSet? f negated name = none := by
  rw [classSet?, asciiClass?_of_mem h]
  rfl

/-- Two complements are there or not together. -/
abbrev SomeTogether (a b : Option CharSet) : Prop := a.isSome = b.isSome

/-- Flags that agree find the same classes, each with some set. -/
theorem rel_classSet? (halike : f.Alike g) (negated : Bool) (name : List Char) :
    Option.Rel SomeTogether (classSet? f negated name) (classSet? g negated name) := by
  rw [classSet?, classSet?, unicode_of_alike halike]
  cases asciiClass? (String.ofList name) with
  | none => exact .none
  | some set =>
    refine .some ?_
    cases negated with
    | false => rfl
    | true => cases f.unicode <;> rfl

/-- Whether a reader does the same with a text alone and in front of a closing parenthesis, also if
it refuses the text. -/
def AgreesAt {α β : Type} (V : α → β → Prop) (R : Reader α) (R' : Reader β) (u : List Char) :
    Prop :=
  (R u = none ∧ ∀ t, R' (u ++ ')' :: t) = none) ∨
    ∃ a b r, R u = some (a, r) ∧ V a b ∧ ∀ t, R' (u ++ ')' :: t) = some (b, r ++ ')' :: t)

/-- The name of a class is read alike in a group, because no name reaches the group's end. -/
theorem agreesAt_className (halike : f.Alike g) (negated : Bool) (u : List Char) :
    AgreesAt SomeTogether (className f negated) (className g negated) u := by
  have hparenthesis : ∀ (S : Reader (Option CharSet)) (t : List Char),
      onChar ']' S refuse (')' :: t) = none := by
    intro S t
    exact onChar_of_ne (by simp) S refuse
  cases hsplit : splitFirst [':'] u with
  | none =>
    refine Or.inl ⟨by rw [className, andThen, hsplit]; rfl, fun t => ?_⟩
    rw [className, andThen]
    cases hsplit' : splitFirst [':'] (u ++ ')' :: t) with
    | none => rfl
    | some p =>
      -- a colon behind the parenthesis would put it in the name
      have hmem := mem_of_splitFirst_append (by decide) hsplit hsplit'
      rw [Option.bind_some, classSet?_of_mem g negated hmem]
      obtain ⟨name, m⟩ := p
      cases m with
      | nil => rfl
      | cons c m =>
        dsimp only [onChar]
        split <;> rfl
  | some p =>
    obtain ⟨name, m⟩ := p
    have hleft : className f negated u =
        onChar ']' (leave? (classSet? f negated name)) refuse m := by
      rw [className, andThen, hsplit]
      rfl
    have hright : ∀ t, className g negated (u ++ ')' :: t) =
        onChar ']' (leave? (classSet? g negated name)) refuse (m ++ ')' :: t) := by
      intro t
      rw [className, andThen, splitFirst_append hsplit]
      rfl
    unfold AgreesAt
    rw [hleft]
    simp only [hright]
    cases m with
    | nil => exact Or.inl ⟨rfl, hparenthesis _⟩
    | cons c m =>
      -- both names are the same, so both classes are there or none is
      by_cases hc : c = ']'
      · subst hc
        simp only [List.cons_append, onChar_cons]
        have hrel := rel_classSet? halike negated name
        generalize classSet? f negated name = a? at hrel ⊢
        generalize classSet? g negated name = b? at hrel ⊢
        cases hrel with
        | none => exact Or.inl ⟨rfl, fun t => rfl⟩
        | some htogether => exact Or.inr ⟨_, _, m, rfl, htogether, fun t => rfl⟩
      · exact Or.inl ⟨if_neg hc, fun t => if_neg hc⟩

/-- Readers that take the same first step agree if what they go on with agrees. -/
theorem AgreesAt.of_eq {α β : Type} {V : α → β → Prop} {R S : Reader α} {R' S' : Reader β}
    {u u' : List Char} (h : AgreesAt V S S' u') (hleft : R u = S u')
    (hright : ∀ t, R' (u ++ ')' :: t) = S' (u' ++ ')' :: t)) : AgreesAt V R R' u := by
  rcases h with ⟨hnone, hnone'⟩ | ⟨a, b, r, ha, hab, hb⟩
  · exact Or.inl ⟨hleft.trans hnone, fun t => (hright t).trans (hnone' t)⟩
  · exact Or.inr ⟨a, b, r, hleft.trans ha, hab, fun t => (hright t).trans (hb t)⟩

/-- A class is read alike by itself and in a group. -/
theorem agreesAt_readAsciiClass (halike : f.Alike g) (u : List Char) :
    AgreesAt SomeTogether (readAsciiClass f) (readAsciiClass g) u := by
  -- in front of the parenthesis the colon can be the last character
  cases u with
  | nil =>
    exact Or.inl ⟨readAsciiClass_of_ne f (by simp), fun t => readAsciiClass_of_ne g (by simp)⟩
  | cons c u =>
    by_cases hc : c = ':'
    · subst hc
      cases u with
      | nil =>
        exact (agreesAt_className halike false []).of_eq (readAsciiClass_colon f []) fun t =>
          readAsciiClass_colon g _
      | cons d u =>
        by_cases hd : d = '^'
        · subst hd
          exact (agreesAt_className halike true u).of_eq (readAsciiClass_colon f _) fun t =>
            readAsciiClass_colon g _
        · exact (agreesAt_className halike false (d :: u)).of_eq
            ((readAsciiClass_colon f _).trans (if_neg hd)) fun t =>
              (readAsciiClass_colon g _).trans (if_neg hd)
    · have hne : ∀ s rest, c :: s = ':' :: rest → False := fun s rest h => hc (List.cons.inj h).1
      exact Or.inl ⟨readAsciiClass_of_ne f (hne u), fun t => readAsciiClass_of_ne g (hne _)⟩

/-! ## Items -/

/-- An element of a set in terms of the readers that are compared. -/
theorem readSetAtom_eq (f : Flags) :
    readSetAtom f =
      onHead fun c => if c = '\\' then readEscape f else leave? (some (.literal c)) := by
  funext s
  cases s with
  | nil => rfl
  | cons c rest =>
    rw [onHead]
    split
    · next hc =>
      subst hc
      rfl
    · next hc =>
      unfold readSetAtom
      split
      · next heq => cases heq
      · next heq => exact absurd (List.cons.inj heq).1 hc
      · next heq =>
        obtain ⟨rfl, rfl⟩ := List.cons.inj heq
        rfl

/-- An element is read alike in a group. -/
theorem embeds_readSetAtom (halike : f.Alike g) :
    Embeds f.verbose Atom.Alike (readSetAtom f) (readSetAtom g) := by
  rw [readSetAtom_eq, readSetAtom_eq]
  refine embeds_onHead fun c => Embeds.embedsAt (embeds_ite (embeds_readEscape halike) ?_)
  exact embeds_leave? _ (.some (.literal c))

/-- The end of a range behind a hyphen, if the text goes on with one. -/
def rangeEnd? (f : Flags) : List Char → Option (List Char)
  | '-' :: after =>
    match skip f after with
    | ']' :: _ => none
    | '-' :: _ => none
    | after => some after
  | _ => none

/-- The set that a single character or an escape stands for. -/
def Atom.set? (f : Flags) : Atom → Option CharSet
  | .literal c => (setChar? f c).map .char
  | .set s => some s
  | .look _ => none

/-- The set that a range stands for. -/
def Atom.range? (f : Flags) : Atom → Atom → Option CharSet
  | .literal a, .literal b =>
    if a ≤ b then (setChar? f a).bind fun a => (setChar? f b).map fun b => .range a b else none
  | _, _ => none

/-- Reading what is behind the first character of an item. -/
def itemRest (f : Flags) (first : Atom) : Reader CharSet := fun s =>
  match rangeEnd? f s with
  | none => leave? (first.set? f) s
  | some after => andThen (readSetAtom f) (fun last => leave? (first.range? f last)) after

/-- An item: an element, blanks, and what makes it a range. -/
theorem readSetItem_eq (f : Flags) :
    readSetItem f =
      andThen (readSetAtom f) fun first => andThen (skipping f) fun _ => itemRest f first := by
  funext s
  unfold readSetItem andThen
  cases readSetAtom f s with
  | none => rfl
  | some p =>
    obtain ⟨first, m⟩ := p
    show _ = itemRest f first (skip f m)
    unfold itemRest
    dsimp only [bind, Option.bind_some]
    generalize skip f m = m
    change (match rangeEnd? f m with
      | none => _
      | some after => _) = _
    cases rangeEnd? f m with
    | none =>
      -- an item that is no range has to be a set by itself
      cases first with
      | literal c =>
        dsimp only [leave?, Atom.set?]
        cases setChar? f c <;> rfl
      | set s => rfl
      | look l => rfl
    | some after =>
      dsimp only [andThen]
      cases readSetAtom f after with
      | none => rfl
      | some p =>
        obtain ⟨last, m'⟩ := p
        -- a range has two characters, in their order, as its ends
        cases first <;> cases last <;> try rfl
        next a b =>
          dsimp only [Option.bind_some, leave?, Atom.range?]
          split
          · cases setChar? f a <;> cases setChar? f b <;> rfl
          · rfl

/-- Flags that agree allow the same characters in sets. -/
theorem setChar?_of_alike (halike : f.Alike g) (c : Char) : setChar? g c = setChar? f c := by
  rw [setChar?, setChar?, unicode_of_alike halike]

/-- Missing together. -/
theorem rel_anySets_self (set? : Option CharSet) : Option.Rel AnySets set? set? := by
  cases set? with
  | none => exact .none
  | some set => exact .some trivial

/-- Elements that are alike are sets together. -/
theorem rel_set? (halike : f.Alike g) {a b : Atom} (h : a.Alike b) :
    Option.Rel AnySets (a.set? f) (b.set? g) := by
  cases h with
  | literal c =>
    rw [Atom.set?, Atom.set?, setChar?_of_alike halike]
    exact rel_anySets_self _
  | set s t => exact .some trivial
  | look l => exact .none

/-- Elements that are alike are the ends of ranges together. -/
theorem rel_range? (halike : f.Alike g) {a b c d : Atom} (hab : a.Alike b) (hcd : c.Alike d) :
    Option.Rel AnySets (a.range? f c) (b.range? g d) := by
  have hranges : a.range? f c = b.range? g d := by
    cases hab with
    | literal x =>
      cases hcd with
      | literal y => simp only [Atom.range?, setChar?_of_alike halike]
      | set s t => rfl
      | look l => rfl
    | set s t => rfl
    | look l => rfl
  rw [hranges]
  exact rel_anySets_self _

/-- Without a hyphen there is no range. -/
theorem rangeEnd?_of_ne {s : List Char} (f : Flags) (h : ∀ after, s = '-' :: after → False) :
    rangeEnd? f s = none := by
  unfold rangeEnd?
  split
  · next after => exact absurd rfl (h after)
  · rfl

/-- Whether a hyphen stands for itself and what is behind it are the same in both places, except
that a set ends nowhere if its text does. -/
theorem rangeEnd?_append (halike : f.Alike g) (u : List Char) :
    rangeEnd? f u = some [] ∨
      ∀ t, rangeEnd? g (u ++ ')' :: t) = (rangeEnd? f u).map (· ++ ')' :: t) := by
  cases u with
  | nil =>
    right
    intro t
    rw [rangeEnd?_of_ne g (by simp), rangeEnd?_of_ne f (by simp)]
    rfl
  | cons c u =>
    by_cases hc : c = '-'
    · subst hc
      -- behind the hyphen the text is over, and then the parenthesis would end the range
      cases hskip : skip f u with
      | nil =>
        left
        rw [rangeEnd?, hskip]
      | cons d m =>
        right
        intro t
        rw [List.cons_append, rangeEnd?, rangeEnd?, skip_of_alike halike,
          skip_append_of_ne_nil (by rw [hskip]; simp), hskip, List.cons_append]
        -- a bracket or a second hyphen makes no range, with or without the parenthesis
        by_cases hset : d = ']'
        · subst hset
          rfl
        · by_cases hhyphen : d = '-'
          · subst hhyphen
            rfl
          · split
            · next heq => exact absurd (List.cons.inj heq).1 hset
            · next heq => exact absurd (List.cons.inj heq).1 hhyphen
            · split
              · next heq => exact absurd (List.cons.inj heq).1 hset
              · next heq => exact absurd (List.cons.inj heq).1 hhyphen
              · rfl
    · right
      intro t
      have hne : ∀ s after, c :: s = '-' :: after → False := fun s after h =>
        hc (List.cons.inj h).1
      rw [List.cons_append, rangeEnd?_of_ne g (hne _), rangeEnd?_of_ne f (hne _)]
      rfl

/-- The rest of an item does not read past the end of its text. -/
theorem stops_itemRest (f : Flags) (first : Atom) : Stops (itemRest f first) := by
  intro a r h
  exact stops_leave? _ a r h

/-- The rest of an item is read alike in a group. -/
theorem embeds_itemRest (halike : f.Alike g) {first first' : Atom} (hfirst : first.Alike first') :
    Embeds f.verbose AnySets (itemRest f first) (itemRest g first') where
  embedsAt u := by
    intro a r h
    rcases rangeEnd?_append halike u with hend | hright
    · -- nothing is left for the end of the range
      rw [itemRest, hend] at h
      cases h
    · cases hrange : rangeEnd? f u with
      | none =>
        refine ((embeds_leave? f.verbose (rel_set? halike hfirst)).embedsAt u).of_eq ?_ ?_ a r h
        · rw [itemRest, hrange]
        · intro t
          rw [itemRest, hright t, hrange]
          rfl
      | some after =>
        -- the end of a range is one more element
        have hlast : Embeds f.verbose AnySets
            (andThen (readSetAtom f) fun last => leave? (first.range? f last))
            (andThen (readSetAtom g) fun last => leave? (first'.range? g last)) :=
          (embeds_readSetAtom halike).andThen
            (fun last last' hlast => embeds_leave? _ (rel_range? halike hfirst hlast))
            (fun _ => stops_leave? _) fun _ => stops_leave? _
        refine (hlast.embedsAt after).of_eq ?_ ?_ a r h
        · rw [itemRest, hrange]
        · intro t
          rw [itemRest, hright t, hrange]
          rfl
  stops := stops_itemRest f first
  stops_right := stops_itemRest g first'

/-- An item is read alike in a group. -/
theorem embeds_readSetItem (halike : f.Alike g) :
    Embeds f.verbose AnySets (readSetItem f) (readSetItem g) := by
  rw [readSetItem_eq, readSetItem_eq]
  refine (embeds_readSetAtom halike).andThen ?_
    (fun first => (stops_skipping f).andThen fun _ => stops_itemRest f first)
    (fun first => (stops_skipping g).andThen fun _ => stops_itemRest g first)
  intro first first' hfirst
  exact (embeds_skipping halike).andThen_of_eq fun _ => embeds_itemRest halike hfirst

/-! ## Whole sets -/

/-- The operation that a text begins with. -/
def operation? : List Char → Option (SetOp × List Char)
  | '&' :: '&' :: rest => some (.intersection, rest)
  | '-' :: '-' :: rest => some (.difference, rest)
  | '~' :: '~' :: rest => some (.symmetricDifference, rest)
  | _ => none

/-- A set with one more item. -/
def PartialSet.add (p : PartialSet) (set : CharSet) : PartialSet :=
  { p with items := set :: p.items }

/-- A set behind an operation. -/
def PartialSet.operate (f : Flags) (p : PartialSet) (op : SetOp) : PartialSet :=
  { p with left := some (op, p.joined f), items := [] }

section Steps

variable {n : Nat} {outer : List PartialSet} {p : PartialSet} {s rest : List Char}

/-- A set that is not closed is refused. -/
theorem readSet_nil (h : skip f s = []) : readSet f (n + 1) outer p s = none := by
  rw [readSet, h]

/-- A bracket begins a class or a set in a set. -/
theorem readSet_open (h : skip f s = '[' :: rest) :
    readSet f (n + 1) outer p s =
      match readAsciiClass f rest with
      | some (some set, rest) => readSet f n outer (p.add set) rest
      | some (none, _) => none
      | none => readSet f n (p :: outer) (openSet f rest).1 (openSet f rest).2 := by
  rw [readSet, h]
  rfl

/-- A bracket closes the innermost set, and what is around it goes on. -/
theorem readSet_close (h : skip f s = ']' :: rest) :
    readSet f (n + 1) outer p s =
      (p.finish? f).bind fun set =>
        match outer with
        | [] => some (set, rest)
        | q :: outer => readSet f n outer (q.add set) rest := by
  rw [readSet, h]
  dsimp only
  cases p.finish? f with
  | none => rfl
  | some set => cases outer <;> rfl

/-- An operator closes its left side. -/
theorem readSet_operation {op : SetOp} {m : List Char} (h : skip f s = m)
    (hop : operation? m = some (op, rest)) :
    readSet f (n + 1) outer p s = readSet f n outer (p.operate f op) rest := by
  unfold operation? at hop
  rw [readSet, h]
  split at hop
  · obtain ⟨rfl, rfl⟩ := Prod.mk.inj (Option.some.inj hop)
    exact readSet.operation.eq_1 f n outer p _ _
  · obtain ⟨rfl, rfl⟩ := Prod.mk.inj (Option.some.inj hop)
    exact readSet.operation.eq_1 f n outer p _ _
  · obtain ⟨rfl, rfl⟩ := Prod.mk.inj (Option.some.inj hop)
    exact readSet.operation.eq_1 f n outer p _ _
  · cases hop

/-- Anything else is an item. -/
theorem readSet_item {c : Char} (h : skip f s = c :: rest) (hopen : c ≠ '[') (hclose : c ≠ ']')
    (hop : operation? (c :: rest) = none) :
    readSet f (n + 1) outer p s =
      (readSetItem f (c :: rest)).bind fun q => readSet f n outer (p.add q.1) q.2 := by
  rw [readSet, h]
  split
  · next heq => cases heq
  · next heq => exact absurd (List.cons.inj heq).1 hopen
  · next heq => exact absurd (List.cons.inj heq).1 hclose
  · next heq =>
    obtain ⟨rfl, rfl⟩ := List.cons.inj heq
    cases hop
  · next heq =>
    obtain ⟨rfl, rfl⟩ := List.cons.inj heq
    cases hop
  · next heq =>
    obtain ⟨rfl, rfl⟩ := List.cons.inj heq
    cases hop
  · next heq =>
    cases readSetItem f (c :: rest) <;> rfl

end Steps

/-- An operator is recognised by its two characters, whatever follows. -/
theorem operation?_append {m rest : List Char} {op : SetOp} (h : operation? m = some (op, rest))
    (e : List Char) : operation? (m ++ e) = some (op, rest ++ e) := by
  unfold operation? at h
  split at h
  · obtain ⟨rfl, rfl⟩ := Prod.mk.inj (Option.some.inj h)
    rfl
  · obtain ⟨rfl, rfl⟩ := Prod.mk.inj (Option.some.inj h)
    rfl
  · obtain ⟨rfl, rfl⟩ := Prod.mk.inj (Option.some.inj h)
    rfl
  · cases h

/-- A parenthesis does not complete an operation. -/
theorem operation?_append_of_none {m : List Char} (h : operation? m = none) (t : List Char) :
    operation? (m ++ ')' :: t) = none := by
  cases m with
  | nil => rfl
  | cons c m =>
    cases m with
    | nil =>
      -- a parenthesis is the second character of no operator
      rw [List.singleton_append]
      unfold operation?
      split
      · next heq => simp at heq
      · next heq => simp at heq
      · next heq => simp at heq
      · rfl
    | cons d m =>
      rw [List.cons_append, List.cons_append]
      unfold operation? at h ⊢
      split
      · next heq =>
        obtain ⟨rfl, rfl, -⟩ := by simpa using heq
        cases h
      · next heq =>
        obtain ⟨rfl, rfl, -⟩ := by simpa using heq
        cases h
      · next heq =>
        obtain ⟨rfl, rfl, -⟩ := by simpa using heq
        cases h
      · rfl

/-- Whether two parts of sets are both negated or both not. -/
def PartialSet.SameSign (p q : PartialSet) : Prop := p.negated = q.negated

/-- Items leave the sign of a set alone. -/
theorem PartialSet.SameSign.add {p q : PartialSet} (h : p.SameSign q) (a b : CharSet) :
    (p.add a).SameSign (q.add b) := h

/-- Operators leave the sign of a set alone. -/
theorem PartialSet.SameSign.operate {p q : PartialSet} (h : p.SameSign q) (op : SetOp) :
    (p.operate f op).SameSign (q.operate g op) := h

/-- Sets of the same sign are finished together. -/
theorem exists_finish? (halike : f.Alike g) {p q : PartialSet} (hsign : p.SameSign q)
    {set : CharSet} (h : p.finish? f = some set) : ∃ set', q.finish? g = some set' := by
  rw [PartialSet.finish?] at h ⊢
  rw [unicode_of_alike halike, ← hsign]
  split at h
  · next hnegated =>
    rw [if_pos hnegated]
    split at h
    · next hunicode => exact ⟨_, if_pos hunicode⟩
    · cases h
  · next hnegated => exact ⟨_, if_neg hnegated⟩

/-- A set takes at least its last bracket. -/
theorem ne_nil_of_readSet {n : Nat} {outer : List PartialSet} {p : PartialSet} {s : List Char}
    {q : CharSet × List Char} (h : readSet f n outer p s = some q) : s ≠ [] := by
  rintro rfl
  cases n with
  | zero =>
    rw [readSet] at h
    cases h
  | succ n =>
    rw [readSet_nil (skip_nil f)] at h
    cases h

/-- Whether a set is read to its end in front of a parenthesis, with any fuel that is not less. -/
def FinishesSet (f : Flags) (n : Nat) (outer : List PartialSet) (p : PartialSet)
    (u r : List Char) : Prop :=
  ∃ set, ∀ n', n ≤ n' → ∀ t, readSet f n' outer p (u ++ ')' :: t) = some (set, r ++ ')' :: t)

/-- It is enough to go one step, after which the rest is read. -/
theorem FinishesSet.step {n : Nat} {outer outer₁ : List PartialSet} {p p₁ : PartialSet}
    {u m r : List Char} (h : FinishesSet f n outer₁ p₁ m r)
    (hfirst : ∀ k t, readSet f (k + 1) outer p (u ++ ')' :: t) =
      readSet f k outer₁ p₁ (m ++ ')' :: t)) : FinishesSet f (n + 1) outer p u r := by
  obtain ⟨set, hset⟩ := h
  refine ⟨set, fun n' hn t => ?_⟩
  obtain ⟨k, rfl⟩ := Nat.exists_eq_add_of_le' (Nat.le_of_add_left_le hn)
  rw [hfirst, hset k (Nat.le_of_succ_le_succ hn)]

/-- A set that is read to its end alone is read to its end in front of a parenthesis, and leaves the
same. -/
theorem finishesSet_of_readSet (halike : f.Alike g) {n : Nat} {outer outer' : List PartialSet}
    {p p' : PartialSet} {u r : List Char} {set : CharSet}
    (houter : List.Forall₂ PartialSet.SameSign outer outer') (hsign : p.SameSign p')
    (h : readSet f n outer p u = some (set, r)) : FinishesSet g n outer' p' u r := by
  induction n generalizing outer outer' p p' u with
  | zero =>
    rw [readSet] at h
    cases h
  | succ n ih =>
    cases hskip : skip f u with
    | nil =>
      rw [readSet_nil hskip] at h
      cases h
    | cons c rest =>
      have hskip' : ∀ t, skip g (u ++ ')' :: t) = c :: (rest ++ ')' :: t) := by
        intro t
        rw [skip_of_alike halike, skip_append_of_ne_nil (by rw [hskip]; simp), hskip]
        rfl
      by_cases hopen : c = '['
      · -- a named class, or else a set inside of this one
        subst hopen
        rw [readSet_open hskip] at h
        rcases agreesAt_readAsciiClass halike rest with
          ⟨hclass, hclass'⟩ | ⟨item, item', m, hclass, htogether, hclass'⟩
        · rw [hclass] at h
          refine (ih (.cons hsign houter) rfl h).step fun k t => ?_
          rw [readSet_open (hskip' t), hclass' t, openSet_append halike (ne_nil_of_readSet h)]
        · rw [hclass] at h
          cases item with
          | none => cases h
          | some item =>
            obtain ⟨item', rfl⟩ := Option.isSome_iff_exists.1 htogether.symm
            refine (ih houter (hsign.add item item') h).step fun k t => ?_
            rw [readSet_open (hskip' t), hclass' t]
      · by_cases hclose : c = ']'
        · -- the end of the whole set, or of one inside of another
          subst hclose
          rw [readSet_close hskip] at h
          obtain ⟨whole, hwhole, h⟩ := Option.bind_eq_some_iff.1 h
          obtain ⟨whole', hwhole'⟩ := exists_finish? halike hsign hwhole
          cases houter with
          | nil =>
            obtain ⟨-, rfl⟩ := Prod.mk.inj (Option.some.inj h)
            refine ⟨whole', fun n' hn t => ?_⟩
            obtain ⟨k, rfl⟩ := Nat.exists_eq_add_of_le' (Nat.le_of_add_left_le hn)
            rw [readSet_close (hskip' t), hwhole']
            rfl
          | cons hq houter =>
            refine (ih houter (hq.add whole whole') h).step fun k t => ?_
            rw [readSet_close (hskip' t), hwhole']
            rfl
        · cases hop : operation? (c :: rest) with
          | some q =>
            obtain ⟨op, m⟩ := q
            rw [readSet_operation hskip hop] at h
            exact (ih houter (hsign.operate op) h).step fun k t =>
              readSet_operation (hskip' t) (operation?_append hop _)
          | none =>
            rw [readSet_item hskip hopen hclose hop] at h
            obtain ⟨⟨item, m⟩, hitem, h⟩ := Option.bind_eq_some_iff.1 h
            -- the set goes on behind the item, so that nothing has been taken into a comment
            obtain ⟨item', -, hitem'⟩ :=
              ((embeds_readSetItem halike).embedsAt _).keeps hitem (ne_nil_of_readSet h)
            refine (ih houter (hsign.add item item') h).step fun k t => ?_
            rw [readSet_item (hskip' t) hopen hclose (operation?_append_of_none hop t)]
            exact congrArg (Option.bind · _) (hitem' t)

end Sets

end Parley.Regex
