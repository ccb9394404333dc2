import Mathlib.Data.List.Basic
import Parley.Proofs.Keys
import Parley.Search

/-!
# How far a search looks ahead for a set

An edge for a set is tried with the words ahead, the longest phrase first, and no phrase is tried
that has more words than the bound of the set. The bound is computed from the phrases as they were
given, while a phrase is looked up under the key of its words joined. Nothing is lost by this: a key
has as many words as its phrase, so that no phrase behind the bound can be in the set.

Main result: `PhraseSet.bound_loses_nothing`.
-/

namespace Parley

open Text

/-! ## The bound of a set -/

namespace PhraseSet

/-- The greatest of some numbers is the one it started with, or one of them. -/
theorem foldl_max_eq_or {α : Type} (f : α → Nat) (l : List α) (start : Nat) :
    l.foldl (fun most a => max most (f a)) start = start ∨
      ∃ a ∈ l, f a = l.foldl (fun most a => max most (f a)) start := by
  induction l generalizing start with
  | nil => exact Or.inl rfl
  | cons b rest ih =>
    rw [List.foldl_cons]
    rcases ih (max start (f b)) with hstart | ⟨a, ha, hmost⟩
    · rw [hstart]
      rcases Nat.le_total (f b) start with hle | hle
      · exact Or.inl (Nat.max_eq_left hle)
      · exact Or.inr ⟨b, List.mem_cons_self .., (Nat.max_eq_right hle).symm⟩
    · exact Or.inr ⟨a, List.mem_cons_of_mem b ha, hmost⟩

/-- Some phrase of a list that is not empty has as many words as the bound. -/
theorem exists_length_words_eq_maxWords (cmp : Comparer) {phrases : List String}
    (h : phrases ≠ []) :
    ∃ p ∈ phrases, (words p).length = (ofPhrases cmp phrases).maxWords := by
  rcases foldl_max_eq_or (fun p => (words p).length) phrases 0 with hzero | ⟨p, hp, hmost⟩
  · -- no phrase has any word, so that each of them will do
    obtain ⟨p, hp⟩ := List.exists_mem_of_ne_nil phrases h
    have hle := @length_words_le_maxWords cmp phrases p hp
    have hbound : (ofPhrases cmp phrases).maxWords = 0 := hzero
    exact ⟨p, hp, by omega⟩
  · exact ⟨p, hp, hmost⟩

end PhraseSet

/-! ## Looking at every phrase ahead -/

namespace Node

variable {α : Type}

/-- Along the edge for one set, with every phrase ahead that the set contains, the longest first. -/
def scanMoves (name : String) (set : PhraseSet) (child : Node α) (c : Cursor) : List (Move α) :=
  ((List.range' 1 c.ahead.length).reverse.filter fun k =>
      set.contains (unwords (c.ahead.take k))).map fun k =>
    .capture (Token.setLabel name) (unwords (c.ahead.take k)) child (c.skip k)

/-- Along the edges for sets, with every phrase ahead that they contain. -/
def scanSets (q : Query) (n : Node α) (c : Cursor) : List (Move α) :=
  if c.ahead.isEmpty then []
  else
    n.sets.flatMap fun (name, child) =>
      match q.sets.get? name with
      | none => [.unknownSet name]
      | some set => scanMoves name set child c

/-- Numbers that do not pass can be left out in front of a filter. -/
theorem filter_range'_min {p : Nat → Bool} {most n : Nat}
    (h : ∀ k, 1 ≤ k → k ≤ n → p k = true → k ≤ most) :
    (List.range' 1 (min most n)).filter p = (List.range' 1 n).filter p := by
  have hsplit : List.range' 1 n =
      List.range' 1 (min most n) ++ List.range' (1 + min most n) (n - min most n) := by
    rw [List.range'_append_1, Nat.add_sub_cancel' (Nat.min_le_right most n)]
  -- the numbers that are left out are too large to pass
  have hbehind : (List.range' (1 + min most n) (n - min most n)).filter p = [] := by
    rw [List.filter_eq_nil_iff]
    intro k hk hp
    rw [List.mem_range'_1] at hk
    have hle := h k (by omega) (by omega) hp
    omega
  rw [hsplit, List.filter_append, hbehind, List.append_nil]

theorem phraseMoves_eq_scanMoves {cmp : Comparer} {set : PhraseSet} (hset : set.BuiltUnder cmp)
    {c : Cursor} (hwords : ∀ w ∈ c.ahead, IsWord w) (name : String) (child : Node α) :
    phraseMoves name set child c = scanMoves name set child c := by
  have hbound : ∀ k, 1 ≤ k → k ≤ c.ahead.length →
      set.contains (unwords (c.ahead.take k)) = true → k ≤ set.maxWords := by
    intro k hpos hk hcontains
    have hlength : (c.ahead.take k).length = k := List.length_take_of_le hk
    have hne : c.ahead.take k ≠ [] := List.ne_nil_of_length_pos (by omega)
    have hle := PhraseSet.length_le_maxWords hset
      (fun w hw => hwords w (List.mem_of_mem_take hw)) hne hcontains
    omega
  rw [phraseMoves, scanMoves, List.filter_reverse, List.filter_reverse, filter_range'_min hbound]

theorem setMoves_eq_scanSets {q : Query}
    (hsets : ∀ name set, q.sets.get? name = some set → ∃ cmp, set.BuiltUnder cmp)
    (n : Node α) {c : Cursor} (hwords : ∀ w ∈ c.ahead, IsWord w) :
    n.setMoves q c = n.scanSets q c := by
  rw [setMoves, scanSets]
  congr 1
  refine List.flatMap_congr ?_
  rintro ⟨name, child⟩ -
  dsimp only
  cases hget : q.sets.get? name with
  | none => rfl
  | some set =>
    obtain ⟨cmp, hset⟩ := hsets name set hget
    exact phraseMoves_eq_scanMoves hset hwords name child

end Node

/-! ## Nothing is lost -/

theorem Input.isWord_of_mem_drop {message that topic w : String} {s : Segment} {k : Nat}
    (h : w ∈ ((Input.ofTexts message that topic).segment s).drop k) : IsWord w := by
  have hmem := List.mem_of_mem_drop h
  cases s <;> exact isWord_of_mem_words hmem

namespace PhraseSet

variable {α : Type}

/-- **The bound on the words of a phrase loses nothing.** A set of phrases contains some words
exactly if a phrase of the list has their key, then they are not more than its bound allows, and one
of the phrases has as many. At every node and every position of an input, the ways along sets,
computed ones included, are therefore the same and in the same order as if every phrase ahead were
looked at. -/
theorem bound_loses_nothing (cmp : Comparer) (phrases : List String) :
    (∀ ws : List String, ws ≠ [] → (∀ w ∈ ws, IsWord w) →
      ((ofPhrases cmp phrases).contains (unwords ws) = true ↔
          ∃ p ∈ phrases, cmp.key (unwords (words p)) = cmp.key (unwords ws)) ∧
        ((ofPhrases cmp phrases).contains (unwords ws) = true →
          ws.length ≤ (ofPhrases cmp phrases).maxWords)) ∧
      (phrases ≠ [] → ∃ p ∈ phrases, (words p).length = (ofPhrases cmp phrases).maxWords) ∧
      ∀ (q : Query) (n : Node α) (message that topic : String) (s : Segment) (k : Nat),
        (∀ name set, q.sets.get? name = some set → ∃ cmp, set.BuiltUnder cmp) →
          let c : Cursor :=
            { segment := s, ahead := ((Input.ofTexts message that topic).segment s).drop k }
          n.setMoves q c = n.scanSets q c := by
  refine ⟨fun ws hne hws => ⟨contains_ofPhrases_iff, ?_⟩, exists_length_words_eq_maxWords cmp, ?_⟩
  · exact length_le_maxWords (.ofPhrases phrases) hws hne
  · intro q n message that topic s k hsets
    exact n.setMoves_eq_scanSets hsets fun _ => Input.isWord_of_mem_drop

/-- A phrase with odd blanks and a blank phrase among the phrases of a set, and the end of a
message at which the set and a computed one are tried. -/
theorem bound_loses_nothing_names :
    let phrases := ["John", "  John \t PAUL ", " "]
    let sets := (SetTable.withBuiltIns .ignoreCase).insert "name" (.ofPhrases .ignoreCase phrases)
    let query : Query :=
      { comparer := .ignoreCase
        sets
        input := .ofTexts "call john paul jones" "" ""
        defaultWildcard := ""
        traceVisits := false }
    let node : Node String := .mk none [] [("NAME", .empty), ("word", .empty)]
    let c : Cursor :=
      { segment := .message
        ahead := ((Input.ofTexts "call john paul jones" "" "").segment .message).drop 1 }
    (ofPhrases .ignoreCase phrases).contains (unwords ["john", "paul"]) = true ∧
      ["john", "paul"].length ≤ (ofPhrases .ignoreCase phrases).maxWords ∧
      (∃ p ∈ phrases, (words p).length = (ofPhrases .ignoreCase phrases).maxWords) ∧
      node.setMoves query c = node.scanSets query c := by
  intro phrases sets query node c
  obtain ⟨hcontains, hreached, hmoves⟩ := @bound_loses_nothing String .ignoreCase phrases
  have hwords : words "john paul" = ["john", "paul"] := by decide +kernel
  obtain ⟨hiff, hbound⟩ := hcontains ["john", "paul"] (by decide)
    fun w hw => isWord_of_mem_words (hwords ▸ hw)
  have hmem : (ofPhrases .ignoreCase phrases).contains (unwords ["john", "paul"]) = true :=
    hiff.2 ⟨"  John \t PAUL ", by simp [phrases], by decide +kernel⟩
  refine ⟨hmem, hbound hmem, hreached (by simp [phrases]), ?_⟩
  refine hmoves query node "call john paul jones" "" "" .message 1 fun name set hget => ?_
  have hsets : sets.BuiltUnder .ignoreCase :=
    .insert "name" (.insert "word" (.insert "number" .empty .number) .word) (.ofPhrases phrases)
  exact ⟨.ignoreCase, hsets.of_get? hget⟩

end PhraseSet

end Parley
