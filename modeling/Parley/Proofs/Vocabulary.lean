import Parley.Proofs.Talk.Counting

/-!
# Counting words

The vocabulary of a bot is the number of different words in the graph of all users and in the sets.
The graph keeps of each edge the token that it was added for, and no other spelling of it; so the
count does not depend on spellings only if tokens that are the same stand for words that are the
same.

They do, but for two things. A word that is spelled like a separator, and not in the same case,
counts if it was added before the separator and does not if it was added behind it. And of a
preferred word all dollar signs in front are left out, while only the first one makes it preferred;
so a preferred word that starts with a dollar sign itself is taken for another word.

Main results:

* `Token.Akin`, `Token.akin_ofText` — texts with one key stand for tokens of one kind;
* `Token.map_key_vocabularyWord?` — tokens that are the same stand for words that are the same;
* `Graph.mem_tokens_insertAll`, `Graph.exists_mem_tokens_insertAll` — what the edges of a graph keep
  of the paths that were added;
* `Bot.vocabulary_counts` — the vocabulary, whatever was added in whatever order and spelling.
-/

namespace Parley

open Text

/-! ## Counting without repetitions -/

section EraseDups

variable {β : Type} [DecidableEq β]

/-- Of a word that occurs more than once, one copy is left. -/
theorem nodup_eraseDups (l : List β) : l.eraseDups.Nodup := by
  induction hlength : l.length using Nat.strongRecOn generalizing l with
  | _ length ih =>
    subst hlength
    cases l with
    | nil => exact .nil
    | cons b l =>
      rw [List.eraseDups_cons, List.nodup_cons, List.mem_eraseDups, List.mem_filter]
      have hless := List.length_filter_le (fun c => !c == b) l
      refine ⟨by simp, ih _ ?_ _ rfl⟩
      rw [List.length_cons]
      omega

/-- Without duplicates, a list has as many elements as the finite set of them. -/
theorem length_eraseDups (l : List β) : l.eraseDups.length = l.toFinset.card := by
  rw [← List.toFinset_card_of_nodup (nodup_eraseDups l)]
  congr 1
  ext b
  rw [List.mem_toFinset, List.mem_toFinset, List.mem_eraseDups]

end EraseDups

/-! ## Dollar signs -/

/-- A text without the dollar signs at its start. -/
def dropDollars (s : String) : String :=
  String.ofList (s.toList.dropWhile (· == '$'))

/-- One dollar sign more makes no difference. -/
theorem dropDollars_dollar (s : String) : dropDollars ("$" ++ s) = dropDollars s := by
  simp [dropDollars]

/-- Only signs at the start are dropped. -/
theorem dropDollars_of_head? {s : String} (h : s.toList.head? ≠ some '$') : dropDollars s = s := by
  apply String.toList_injective
  rw [dropDollars, String.toList_ofList]
  cases hs : s.toList with
  | nil => rfl
  | cons c rest =>
    have hc : (c == '$') = false := by
      rw [hs, List.head?_cons] at h
      simpa using h
    rw [List.dropWhile_cons_of_neg (by rw [hc]; exact Bool.false_ne_true)]

/-- Dollar signs have no case. -/
theorem Comparer.key_dropDollars (cmp : Comparer) (s : String) :
    cmp.key (dropDollars s) = dropDollars (cmp.key s) := by
  induction hlength : s.toList.length using Nat.strongRecOn generalizing s with
  | _ length ih =>
    subst hlength
    by_cases hhead : s.toList.head? = some '$'
    · obtain ⟨rest, hrest⟩ := List.head?_eq_some_iff.1 hhead
      obtain rfl : s = "$" ++ String.ofList rest := by
        apply String.toList_injective
        simp [hrest]
      rw [key_dollar, dropDollars_dollar, dropDollars_dollar]
      exact ih _ (by simp) _ rfl
    · have hkey : (cmp.key s).toList.head? ≠ some '$' :=
        fun h => hhead (cmp.head?_of_head?_key h (by decide))
      rw [dropDollars_of_head? hhead, dropDollars_of_head? hkey]

/-- What is the same as a word is not empty if the word is not. -/
theorem Comparer.ne_empty_of_key_eq {cmp : Comparer} {v w : String} (h : cmp.key v = cmp.key w)
    (hv : v ≠ "") : w ≠ "" := by
  rintro rfl
  have hempty : (cmp.key v).toList = [] := by
    rw [h, key_eq_empty_iff]
    rfl
  exact hv (String.toList_injective ((cmp.key_eq_empty_iff v).1 hempty))

/-! ## Kinds of tokens -/

namespace Token

variable {cmp : Comparer} {t u : Token}

/-- A dollar sign in front of a word prefers it. -/
theorem ofText_dollar {v : String} (hv : v ≠ "") : ofText ("$" ++ v) = .priority v := by
  have hsymbol : Wildcard.ofSymbol? ("$" ++ v) = none := ofSymbol?_text_priority v
  rw [ofText, hsymbol]
  cases hlist : v.toList with
  | nil => exact absurd (String.toList_injective hlist) hv
  | cons c cs =>
    obtain rfl : v = String.ofList (c :: cs) := by
      rw [← hlist, String.ofList_toList]
    have htext : ("$" ++ String.ofList (c :: cs)).toList = '$' :: c :: cs := by simp
    simp only [htext]

/-- Any other text that is no wildcard is a word. -/
theorem ofText_of_not_dollar {s : String} (hsymbol : Wildcard.ofSymbol? s = none)
    (hs : ∀ v, v ≠ "" → s ≠ "$" ++ v) : ofText s = .word s := by
  rw [ofText, hsymbol]
  dsimp only
  split
  · next c cs htext =>
    refine absurd ?_ (hs (String.ofList (c :: cs)) ?_)
    · apply String.toList_injective
      simp [htext]
    · intro hempty
      simpa using congrArg String.toList hempty
  · rfl

/-- Whether a token is what its text stands for, unless it refers to a set. -/
def IsKnownByText (t : Token) : Prop := t.isSet = true ∨ ofText t.text = t

/-- Tokens of one kind, with words that are the same. -/
inductive Akin (cmp : Comparer) : Token → Token → Prop where
  | word {v w : String} (same : cmp.key v = cmp.key w) : Akin cmp (.word v) (.word w)
  | priority {v w : String} (same : cmp.key v = cmp.key w) : Akin cmp (.priority v) (.priority w)
  | wildcard (w : Wildcard) : Akin cmp (.wildcard w) (.wildcard w)
  | set (name name' : String) : Akin cmp (.set name) (.set name')

/-- Texts with one key stand for tokens of one kind. -/
theorem akin_ofText {s s' : String} (h : cmp.key s = cmp.key s') :
    Akin cmp (ofText s) (ofText s') := by
  have hequals : cmp.equals s s' = true := (cmp.equals_iff_key_eq s s').2 h
  have hequals' : cmp.equals s' s = true := (cmp.equals_iff_key_eq s' s).2 h.symm
  cases hsymbol : Wildcard.ofSymbol? s with
  | some w =>
    obtain rfl := Wildcard.symbol_of_ofSymbol? hsymbol
    obtain rfl := (cmp.equals_symbol_iff s' w).1 hequals'
    rw [ofText, hsymbol]
    exact .wildcard w
  | none =>
    have hsymbol' : Wildcard.ofSymbol? s' = none := by
      cases hsome : Wildcard.ofSymbol? s' with
      | none => rfl
      | some w =>
        obtain rfl := Wildcard.symbol_of_ofSymbol? hsome
        rw [(cmp.equals_symbol_iff s w).1 hequals, hsome] at hsymbol
        cases hsymbol
    -- a dollar sign is in front of both or of neither
    by_cases hdollar : ∃ v, v ≠ "" ∧ s = "$" ++ v
    · obtain ⟨v, hv, rfl⟩ := hdollar
      obtain ⟨v', rfl, hsame⟩ := Comparer.exists_of_equals_dollar hequals'
      have hkey := (cmp.equals_iff_key_eq v' v).1 hsame
      rw [ofText_dollar hv, ofText_dollar (Comparer.ne_empty_of_key_eq hkey.symm hv)]
      exact .priority hkey.symm
    · have hs : ∀ v, v ≠ "" → s ≠ "$" ++ v := fun v hv heq => hdollar ⟨v, hv, heq⟩
      have hs' : ∀ v, v ≠ "" → s' ≠ "$" ++ v := by
        rintro v' hv' rfl
        obtain ⟨v, rfl, hsame⟩ := Comparer.exists_of_equals_dollar hequals
        have hkey := (cmp.equals_iff_key_eq v v').1 hsame
        exact hs v (Comparer.ne_empty_of_key_eq hkey.symm hv') rfl
      rw [ofText_of_not_dollar hsymbol hs, ofText_of_not_dollar hsymbol' hs']
      exact .word h

/-- Tokens that match are of one kind, if each is what its text stands for. -/
theorem IsKnownByText.akin (ht : t.IsKnownByText) (hu : u.IsKnownByText)
    (h : t.matchesUnder cmp u = true) : Akin cmp t u := by
  obtain ⟨hset, hkey⟩ := matchesUnder_iff.1 h
  cases hplain : t.isSet with
  | true =>
    rw [hplain] at hset
    cases t with
    | set name =>
      cases u with
      | set name' => exact .set name name'
      | word | priority | wildcard => cases hset
    | word | priority | wildcard => cases hplain
  | false =>
    rw [hplain] at hset
    rw [← ht.resolve_left (Bool.eq_false_iff.1 hplain),
      ← hu.resolve_left (Bool.eq_false_iff.1 hset.symm)]
    exact akin_ofText hkey

/-! ## Words of tokens -/

/-- The word that a token stands for: that of a preferred word is the one that it takes. -/
def ownWord? : Token → Option String
  | .word w => if w == thatSeparator || w == topicSeparator then none else some w
  | .priority w => some w
  | .wildcard _ => none
  | .set _ => none

/-- Whether a token is spelled like a separator only if it is one. -/
def SpellsSeparators (cmp : Comparer) (t : Token) : Prop :=
  ∀ separator, separator = thatSeparator ∨ separator = topicSeparator →
    t.IsSeparator cmp separator → t = .word separator

instance : Decidable (t.SpellsSeparators cmp) :=
  decidable_of_iff (∀ separator ∈ [thatSeparator, topicSeparator],
      t.isSet = false ∧ cmp.equals t.text separator = true → t = .word separator) <| by
    simp only [SpellsSeparators, IsSeparator, List.mem_cons, List.not_mem_nil, or_false]

/-- Tokens that are the same stand for words that are the same. -/
theorem map_key_vocabularyWord? (ht : t.IsKnownByText) (hu : u.IsKnownByText)
    (hst : t.SpellsSeparators cmp) (hsu : u.SpellsSeparators cmp)
    (h : t.matchesUnder cmp u = true) :
    (Bot.vocabularyWord? t).map cmp.key = (Bot.vocabularyWord? u).map cmp.key := by
  cases ht.akin hu h with
  | wildcard w => rfl
  | set name name' => rfl
  | @priority v w same =>
    show some (cmp.key (dropDollars v)) = some (cmp.key (dropDollars w))
    rw [cmp.key_dropDollars, cmp.key_dropDollars, same]
  | @word v w same =>
    -- one is a separator exactly if the other one is
    have hboth : ∀ separator, separator = thatSeparator ∨ separator = topicSeparator →
        (v = separator ↔ w = separator) := by
      intro separator hseparator
      constructor
      · rintro rfl
        have his : (Token.word w).IsSeparator cmp v := ⟨rfl, (cmp.equals_iff_key_eq ..).2 same.symm⟩
        exact Token.word.inj (hsu v hseparator his)
      · rintro rfl
        have his : (Token.word v).IsSeparator cmp w := ⟨rfl, (cmp.equals_iff_key_eq ..).2 same⟩
        exact Token.word.inj (hst w hseparator his)
    have hskipped : (v == thatSeparator || v == topicSeparator) =
        (w == thatSeparator || w == topicSeparator) := by
      rw [Bool.eq_iff_iff]
      simp only [Bool.or_eq_true, beq_iff_eq, hboth thatSeparator (Or.inl rfl),
        hboth topicSeparator (Or.inr rfl)]
    rw [Bot.vocabularyWord?, Bot.vocabularyWord?, hskipped]
    split
    · rfl
    · rw [Option.map_some, Option.map_some, same]

/-- But for further dollar signs, a token counts with the word that it stands for. -/
theorem vocabularyWord?_eq_ownWord? (h : ∀ v, t = .priority v → v.toList.head? ≠ some '$') :
    Bot.vocabularyWord? t = t.ownWord? := by
  cases t with
  | word w => rfl
  | wildcard w => rfl
  | set name => rfl
  | priority v => exact congrArg some (dropDollars_of_head? (h v rfl))

end Token

/-! ## Tokens of paths -/

/-- The tokens of a path are known by their texts. -/
theorem Pattern.isKnownByText_of_mem_tokens {config : Config} {p : Pattern} {t : Token}
    (h : t ∈ p.tokens config) : t.IsKnownByText := by
  obtain ⟨item, -, ht⟩ := List.mem_flatMap.1 h
  cases item with
  | word text =>
    rw [List.mem_singleton.1 ht]
    exact Or.inr (by rw [Token.text_ofText])
  | property name =>
    -- the words of a property are not empty
    obtain ⟨w, hw, rfl⟩ := List.mem_map.1 ht
    refine Or.inr (Token.ofText_dollar ?_)
    rintro rfl
    exact (isWord_of_mem_words hw).1 rfl
  | set name =>
    rw [List.mem_singleton.1 ht]
    exact Or.inl rfl

/-- The tokens of a category come from the texts of its items. -/
theorem Category.isKnownByText_of_mem_path {config : Config} {topicName? : Option String}
    {c : Category} {t : Token} (h : t ∈ c.path config topicName?) : t.IsKnownByText := by
  have hwildcard : (Token.wildcard .oneOrMore).IsKnownByText := Or.inr rfl
  have hthat : ∀ u ∈ thatTokens config c.that?, u.IsKnownByText := by
    intro u hu
    cases hpattern : c.that? with
    | some p =>
      rw [hpattern] at hu
      exact Pattern.isKnownByText_of_mem_tokens hu
    | none =>
      rw [hpattern] at hu
      rw [List.mem_singleton.1 hu]
      exact hwildcard
  have htopic : ∀ u ∈ topicTokens config topicName? c.topic?, u.IsKnownByText := by
    intro u hu
    cases hpattern : c.topic? with
    | some p =>
      rw [hpattern] at hu
      exact Pattern.isKnownByText_of_mem_tokens hu
    | none =>
      rw [hpattern, topicTokens] at hu
      cases hname : words (topicName?.getD "") with
      | nil =>
        rw [hname] at hu
        rw [List.mem_singleton.1 hu]
        exact hwildcard
      | cons w ws =>
        rw [hname] at hu
        obtain ⟨v, -, rfl⟩ := List.mem_map.1 hu
        exact Or.inr (by rw [Token.text_ofText])
  -- the path is the three parts and the separators between them
  rw [path, compilePath, List.mem_append, List.mem_cons, List.mem_append, List.mem_cons] at h
  rcases h with h | rfl | h | rfl | h
  · exact Pattern.isKnownByText_of_mem_tokens h
  · exact Or.inr rfl
  · exact hthat t h
  · exact Or.inr rfl
  · exact htopic t h

/-! ## Spellings of separators -/

namespace Token

variable {cmp : Comparer} {t : Token}

/-- A token that is no separator in any spelling does not misspell one. -/
theorem SpellsSeparators.of_not (h : ∀ separator, separator = thatSeparator ∨
    separator = topicSeparator → ¬ t.IsSeparator cmp separator) : t.SpellsSeparators cmp :=
  fun separator hseparator his => absurd his (h separator hseparator)

/-- No wildcard is spelled like a separator. -/
theorem spellsSeparators_wildcard (w : Wildcard) : (Token.wildcard w).SpellsSeparators cmp := by
  refine .of_not fun separator hseparator => ?_
  rintro ⟨-, hequals⟩
  rw [Comparer.equals_comm, text, Comparer.equals_symbol_iff] at hequals
  subst hequals
  rcases hseparator with h | h <;> cases w <;> exact absurd h (by decide)

/-- The first separator is spelled like itself only. -/
theorem spellsSeparators_that : (Token.word thatSeparator).SpellsSeparators cmp := by
  rintro separator (rfl | rfl) his
  · rfl
  · exact (IsSeparator.that_ne_topic ⟨rfl, Comparer.equals_self ..⟩ his).elim

/-- The second separator is spelled like itself only. -/
theorem spellsSeparators_topic : (Token.word topicSeparator).SpellsSeparators cmp := by
  rintro separator (rfl | rfl) his
  · exact (IsSeparator.that_ne_topic his ⟨rfl, Comparer.equals_self ..⟩).elim
  · rfl

end Token

/-- Patterns that are read from markup have no separators, so that only the topic that a category
stands under can spell one otherwise. -/
theorem Category.FromMarkup.spellsSeparators {c : Category} (hc : c.FromMarkup) {config : Config}
    {cmp : Comparer} {topicName? : Option String}
    (hname : ∀ v ∈ words (topicName?.getD ""), (Token.ofText v).SpellsSeparators cmp) :
    ∀ t ∈ c.path config topicName?, t.SpellsSeparators cmp := by
  have hread : ∀ {p : Pattern}, p.IsRead → ∀ t ∈ p.tokens config, t.SpellsSeparators cmp :=
    fun hp t ht => .of_not fun separator hseparator => hp.not_isSeparator hseparator config t ht
  have hthat : ∀ t ∈ thatTokens config c.that?, t.SpellsSeparators cmp := fun t ht =>
    .of_not fun separator hseparator =>
      not_isSeparator_of_mem_thatTokens hc.that hseparator config t ht
  have htopic : ∀ t ∈ topicTokens config topicName? c.topic?, t.SpellsSeparators cmp := by
    intro t ht
    cases htopic : c.topic? with
    | some p =>
      rw [htopic] at ht
      exact hread (hc.topic p htopic) t ht
    | none =>
      rw [htopic, topicTokens] at ht
      split at ht
      · rw [List.mem_singleton.1 ht]
        exact Token.spellsSeparators_wildcard .oneOrMore
      · obtain ⟨v, hv, rfl⟩ := List.mem_map.1 ht
        exact hname v hv
  intro t ht
  -- only the separators themselves are spelled like one
  rw [path, compilePath, List.mem_append, List.mem_cons, List.mem_append, List.mem_cons] at ht
  rcases ht with ht | rfl | ht | rfl | ht
  · exact hread hc.pattern t ht
  · exact Token.spellsSeparators_that
  · exact hthat t ht
  · exact Token.spellsSeparators_topic
  · exact htopic t ht

/-! ## Tokens of graphs -/

namespace Node

variable {α : Type} {n : Node α} {P : Token → Prop}

/-- The tokens at and below some words, edge by edge. -/
theorem tokensWords_eq_flatMap (ws : List (String × Token × Node α)) :
    tokensWords ws = ws.flatMap fun edge => edge.2.1 :: edge.2.2.tokens := by
  induction ws with
  | nil => rfl
  | cons edge ws ih => rw [tokensWords, ih, List.flatMap_cons, List.cons_append]

/-- The tokens below some sets, edge by edge. -/
theorem tokensSets_eq_flatMap (ss : List (String × Node α)) :
    tokensSets ss = ss.flatMap fun edge => edge.2.tokens := by
  induction ss with
  | nil => rfl
  | cons edge ss ih => rw [tokensSets, ih, List.flatMap_cons]

/-- The tokens at and below a node are those of its word edges, and those at and below the nodes
behind its edges. -/
theorem mem_tokens_iff {t : Token} :
    t ∈ n.tokens ↔ (∃ key child, (key, t, child) ∈ n.words) ∨
      ∃ u child, n.HasEdge u child ∧ t ∈ child.tokens := by
  obtain ⟨value?, ws, ss⟩ := n
  rw [tokens, tokensWords_eq_flatMap, tokensSets_eq_flatMap, List.mem_append, List.mem_flatMap,
    List.mem_flatMap]
  constructor
  · rintro (⟨⟨key, u, child⟩, hedge, ht⟩ | ⟨⟨name, child⟩, hedge, ht⟩)
    · rcases List.mem_cons.1 ht with rfl | ht
      · exact Or.inl ⟨key, child, hedge⟩
      · exact Or.inr ⟨u, child, .word hedge, ht⟩
    · exact Or.inr ⟨.set name, child, .set hedge, ht⟩
  · rintro (⟨key, child, hedge⟩ | ⟨u, child, hedge, ht⟩)
    · exact Or.inl ⟨_, hedge, List.mem_cons_self⟩
    · cases hedge with
      | word stored => exact Or.inl ⟨_, stored, List.mem_cons_of_mem _ ht⟩
      | set stored => exact Or.inr ⟨_, stored, ht⟩

/-- What the tokens of all edges have is what the tokens of word edges have. -/
theorem TokensHave.of_mem_tokens (h : n.TokensHave P) : ∀ t ∈ n.tokens, P t := by
  induction h with
  | mk tokens below ih =>
    intro t ht
    rcases mem_tokens_iff.1 ht with ⟨key, child, stored⟩ | ⟨u, child, hedge, ht⟩
    · exact tokens t child (.word stored)
    · exact ih u child hedge t ht

/-- The tokens of the paths that a walk hands out are those of edges. -/
theorem mem_tokens_of_mem_preorder {path : List Token} {a : α} (h : (path, a) ∈ n.preorder)
    {t : Token} (ht : t ∈ path) (hplain : t.isSet = false) : t ∈ n.tokens := by
  induction path generalizing n with
  | nil => cases ht
  | cons u path ih =>
    rcases mem_preorder.1 h with ⟨heq, -⟩ | ⟨v, child, rest, hedge, hrest, heq⟩
    · cases heq
    · obtain ⟨rfl, rfl⟩ := List.cons.inj heq
      rcases List.mem_cons.1 ht with rfl | ht
      · cases hedge with
        | word stored => exact mem_tokens_iff.2 (Or.inl ⟨_, child, stored⟩)
        | set stored => cases hplain
      · exact mem_tokens_iff.2 (Or.inr ⟨u, child, hedge, ih hrest ht⟩)

end Node

namespace Graph

variable {α : Type} {cmp : Comparer} {P : Token → Prop} {entries : List (List Token × α)}
  {t : Token}

/-- Additions one after the other build a graph from the tokens of their paths. -/
theorem builtOf_insertAll (h : ∀ entry ∈ entries, ∀ t ∈ entry.1, P t) :
    (insertAll cmp entries).BuiltOf P cmp := by
  induction entries using List.reverseRecOn with
  | nil => exact .empty
  | append_singleton entries entry ih =>
    rw [insertAll_concat]
    refine .insert _ (h entry (List.mem_append_right _ List.mem_cons_self)) (ih ?_)
    exact fun e he => h e (List.mem_append_left _ he)

/-- The edges of a graph have tokens of the paths that were added. -/
theorem mem_tokens_insertAll (h : t ∈ (insertAll cmp entries).root.tokens) :
    ∃ entry ∈ entries, t ∈ entry.1 := by
  have hbuilt : (insertAll cmp entries).BuiltOf (fun t => ∃ entry ∈ entries, t ∈ entry.1) cmp :=
    builtOf_insertAll fun entry hentry t ht => ⟨entry, hentry, ht⟩
  exact hbuilt.tokensHave.of_mem_tokens t h

/-- Of each token of a path that was added, the edges have one that is the same. -/
theorem exists_mem_tokens_insertAll {entry : List Token × α} (hentry : entry ∈ entries)
    (ht : t ∈ entry.1) (hplain : t.isSet = false) :
    ∃ u ∈ (insertAll cmp entries).root.tokens, u.matchesUnder cmp t = true := by
  have hstored : (insertAll cmp entries).get? entry.1 ≠ none := by
    rw [Ne, get?_insertAll_eq_none_iff, not_not]
    exact ⟨entry.1, List.mem_map_of_mem hentry, samePath_self cmp entry.1⟩
  obtain ⟨a, ha⟩ := Option.ne_none_iff_exists'.1 hstored
  rw [get?_eq_valueAt?, comparer_insertAll] at ha
  have hkeyed : (insertAll cmp entries).root.WellKeyed cmp := (builtUnder_insertAll _).wellKeyed
  obtain ⟨shown, hmem, hsame⟩ := hkeyed.exists_mem_preorder ha
  rw [samePath_comm] at hsame
  obtain ⟨u, hu, hmatches⟩ := exists_mem_of_samePath hsame ht
  have hkind := Token.matchesUnder_iff.1 hmatches
  refine ⟨u, Node.mem_tokens_of_mem_preorder hmem hu ?_, ?_⟩
  · rw [← hkind.1, hplain]
  · exact Token.matchesUnder_iff.2 ⟨hkind.1.symm, hkind.2.symm⟩

end Graph

/-! ## Sets with names -/

/-- Sets with different names are all in the table in the end, and of what was there before those
are that have other names. -/
theorem SetTable.mem_foldl_insert {sets : List (String × PhraseSet)} {table : SetTable}
    (hnames : sets.Pairwise fun a b => table.comparer.key a.1 ≠ table.comparer.key b.1)
    {e : String × PhraseSet} :
    e ∈ (sets.foldl (fun table a => table.insert a.1 a.2) table).entries ↔
      (∃ a ∈ sets, e = (table.comparer.key a.1, a.2)) ∨
        e ∈ table.entries ∧ ∀ a ∈ sets, e.1 ≠ table.comparer.key a.1 := by
  induction sets generalizing table with
  | nil => simp
  | cons a sets ih =>
    obtain ⟨hfirst, hrest⟩ := List.pairwise_cons.1 hnames
    have hhead : e ∈ (table.insert a.1 a.2).entries ↔
        e = (table.comparer.key a.1, a.2) ∨ e ∈ table.entries ∧ e.1 ≠ table.comparer.key a.1 := by
      rw [insert, Entries.assign, List.mem_cons, List.mem_filter, bne_iff_ne]
    -- what is inserted first is not replaced later: no other name has its key
    rw [List.foldl_cons, @ih (table.insert a.1 a.2) hrest, hhead]
    constructor
    · rintro (⟨b, hb, rfl⟩ | ⟨rfl | ⟨hold, hne⟩, hothers⟩)
      · exact Or.inl ⟨b, List.mem_cons_of_mem _ hb, rfl⟩
      · exact Or.inl ⟨a, List.mem_cons_self, rfl⟩
      · exact Or.inr ⟨hold, List.forall_mem_cons.2 ⟨hne, hothers⟩⟩
    · rintro (⟨b, hb, rfl⟩ | ⟨hold, hothers⟩)
      · rcases List.mem_cons.1 hb with rfl | hb
        · exact Or.inr ⟨Or.inl rfl, hfirst⟩
        · exact Or.inl ⟨b, hb, rfl⟩
      · obtain ⟨hne, hothers⟩ := List.forall_mem_cons.1 hothers
        exact Or.inr ⟨Or.inr ⟨hold, hne⟩, hothers⟩

/-! ## What is added to a bot -/

/-- What a bot can be given: a category, which may stand under a topic, or a set with a name. -/
inductive Addition where
  | category (topicName? : Option String) (c : Category)
  | set (name : String) (phrases : PhraseSet)

namespace Addition

/-- The entry of a category that is added. -/
def entry? (config : Config) : Addition → Option (List Token × Template)
  | .category topicName? c => some (c.path config topicName?, c.template)
  | .set _ _ => none

/-- A set that is added, with its name. -/
def named? : Addition → Option (String × PhraseSet)
  | .category _ _ => none
  | .set name phrases => some (name, phrases)

end Addition

/-- The paths that are added. -/
def addedPaths (config : Config) (additions : List Addition) : List (List Token) :=
  (additions.filterMap (Addition.entry? config)).map Prod.fst

/-- The sets that are added. -/
def addedSets (additions : List Addition) : List (String × PhraseSet) :=
  additions.filterMap Addition.named?

/-- All that is added to a bot is the path of some category. -/
theorem isKnownByText_of_mem_addedPaths {config : Config} {additions : List Addition}
    {path : List Token} (h : path ∈ addedPaths config additions) : ∀ t ∈ path, t.IsKnownByText := by
  obtain ⟨entry, hentry, rfl⟩ := List.mem_map.1 h
  obtain ⟨addition, -, hadds⟩ := List.mem_filterMap.1 hentry
  cases addition with
  | category topicName? c =>
    obtain rfl := Option.some.inj hadds
    exact fun t ht => Category.isKnownByText_of_mem_path ht
  | set name phrases => cases hadds

/-- The keys of some words. -/
def wordKeys (cmp : Comparer) (words : List String) : Finset String := (words.map cmp.key).toFinset

/-- The keys of two lists of words together. -/
theorem wordKeys_append (cmp : Comparer) (words more : List String) :
    wordKeys cmp (words ++ more) = wordKeys cmp words ∪ wordKeys cmp more := by
  rw [wordKeys, List.map_append, List.toFinset_append]
  rfl

/-- The words of some tokens are among those of others if for each token with a word there is one of
the others with a word that is the same. -/
theorem wordKeys_subset {cmp : Comparer} {f : Token → Option String} {ts us : List Token}
    (h : ∀ t ∈ ts, t.isSet = false → ∃ u ∈ us, (f u).map cmp.key = (f t).map cmp.key)
    (hf : ∀ t, t.isSet = true → f t = none) :
    wordKeys cmp (ts.filterMap f) ⊆ wordKeys cmp (us.filterMap f) := by
  intro key hkey
  rw [wordKeys, List.mem_toFinset, List.mem_map] at hkey ⊢
  obtain ⟨w, hw, rfl⟩ := hkey
  obtain ⟨t, ht, hword⟩ := List.mem_filterMap.1 hw
  -- a reference to a set has no word
  have hplain : t.isSet = false := by
    cases hset : t.isSet with
    | false => rfl
    | true =>
      rw [hf t hset] at hword
      cases hword
  obtain ⟨u, hu, hsame⟩ := h t ht hplain
  rw [hword, Option.map_some, Option.map_eq_some_iff] at hsame
  obtain ⟨v, hv, hkey⟩ := hsame
  exact ⟨v, List.mem_filterMap.2 ⟨u, hu, hv⟩, hkey⟩

namespace Bot

/-- The name of a set is not counted as a word. -/
theorem vocabularyWord?_of_isSet {t : Token} (h : t.isSet = true) : vocabularyWord? t = none := by
  cases t with
  | set name => rfl
  | word | priority | wildcard => cases h

/-- A bot and its world after something was added. -/
def extend : Bot × World → Addition → Bot × World
  | (bot, w), .category topicName? c => (bot, ((bot.addCategory topicName? c).run w).2)
  | (bot, w), .set name phrases => ({ bot with sets := bot.sets.insert name phrases }, w)

/-- A bot and its world after some things were added. -/
def extendAll (bot : Bot) (w : World) (additions : List Addition) : Bot × World :=
  additions.foldl extend (bot, w)

/-- The words of the sets of a bot. -/
def setWords (bot : Bot) : List String := bot.sets.values.flatMap PhraseSet.vocabulary

/-- The vocabulary is a number of different keys. -/
theorem vocabulary_eq_card (bot : Bot) (k : Knowledge) :
    bot.vocabulary k = (wordKeys bot.config.comparer
      (k.graph.root.tokens.filterMap vocabularyWord? ++ bot.setWords)).card :=
  length_eraseDups _

variable {bot : Bot} {w : World} {additions others : List Addition}

/-- Categories come to the graph in order, and sets to the table. -/
theorem extendAll_eq (bot : Bot) (w : World) (additions : List Addition) :
    (bot.extendAll w additions).1 =
        { bot with
          sets := (addedSets additions).foldl (fun table a => table.insert a.1 a.2) bot.sets } ∧
      (bot.extendAll w additions).2.knowledge =
        w.knowledge.addAll (additions.filterMap (Addition.entry? bot.config)) := by
  induction additions generalizing bot w with
  | nil => exact ⟨rfl, rfl⟩
  | cons addition additions ih =>
    cases addition with
    | category topicName? c =>
      obtain ⟨hbot, hknowledge⟩ := ih bot ((bot.addCategory topicName? c).run w).2
      obtain ⟨log, reported, hend⟩ := bot.reported_run_addCategory topicName? c w
      refine ⟨hbot, hknowledge.trans ?_⟩
      rw [hend]
      rfl
    | set name phrases => exact ih { bot with sets := bot.sets.insert name phrases } w

/-- The graph after some things were added to a bot that knew nothing. -/
theorem graph_extendAll (hw : w.knowledge = bot.initialKnowledge) (additions : List Addition) :
    (bot.extendAll w additions).2.knowledge.graph =
      Graph.insertAll bot.config.comparer (additions.filterMap (Addition.entry? bot.config)) := by
  rw [(bot.extendAll_eq w additions).2, hw, Knowledge.addAll_eq]

/-- Sets with different names can be added in any order. -/
theorem wordKeys_setWords_congr (hsets : (addedSets others).Perm (addedSets additions))
    (hnames : (addedSets additions).Pairwise fun a b =>
      bot.sets.comparer.key a.1 ≠ bot.sets.comparer.key b.1) (cmp : Comparer) :
    wordKeys cmp (bot.extendAll w others).1.setWords =
      wordKeys cmp (bot.extendAll w additions).1.setWords := by
  have hnames' := hnames.perm hsets.symm fun {_ _} => Ne.symm
  rw [(bot.extendAll_eq w others).1, (bot.extendAll_eq w additions).1]
  ext key
  have hentries : ∀ e,
      e ∈ ((addedSets others).foldl (fun table a => table.insert a.1 a.2) bot.sets).entries ↔
        e ∈ ((addedSets additions).foldl (fun table a => table.insert a.1 a.2)
          bot.sets).entries := by
    intro e
    rw [SetTable.mem_foldl_insert hnames', SetTable.mem_foldl_insert hnames]
    simp only [hsets.mem_iff]
  simp only [wordKeys, setWords, SetTable.values, List.mem_toFinset, List.mem_map,
    List.mem_flatMap, exists_exists_and_eq_and, hentries]

/-- Words of paths that are the same are the same. -/
theorem wordKeys_addedPaths_subset {cmp : Comparer} {config : Config}
    (hseparators : ∀ path ∈ addedPaths config additions, ∀ t ∈ path, t.SpellsSeparators cmp)
    (hothers : ∀ path ∈ addedPaths config others, ∀ t ∈ path, t.SpellsSeparators cmp)
    (hpaths : ((addedPaths config additions).map (pathKey cmp)).toFinset ⊆
      ((addedPaths config others).map (pathKey cmp)).toFinset) :
    wordKeys cmp ((addedPaths config additions).flatten.filterMap vocabularyWord?) ⊆
      wordKeys cmp ((addedPaths config others).flatten.filterMap vocabularyWord?) := by
  refine wordKeys_subset ?_ fun _ => vocabularyWord?_of_isSet
  intro t ht _
  obtain ⟨path, hpath, ht⟩ := List.mem_flatten.1 ht
  have hkey := hpaths (List.mem_toFinset.2 (List.mem_map_of_mem hpath))
  obtain ⟨other, hother, hsame⟩ := List.mem_map.1 (List.mem_toFinset.1 hkey)
  obtain ⟨u, hu, hmatches⟩ := exists_mem_of_samePath (pathKey_eq_iff.1 hsame.symm) ht
  refine ⟨u, List.mem_flatten.2 ⟨other, hother, hu⟩, ?_⟩
  exact (Token.map_key_vocabularyWord? (isKnownByText_of_mem_addedPaths hpath t ht)
    (isKnownByText_of_mem_addedPaths hother u hu) (hseparators path hpath t ht)
    (hothers other hother u hu) hmatches).symm

/-- The words that count are those of the paths that were added, in whatever spelling. -/
theorem wordKeys_tokens (hw : w.knowledge = bot.initialKnowledge)
    (hseparators : ∀ path ∈ addedPaths bot.config additions, ∀ t ∈ path,
      t.SpellsSeparators bot.config.comparer) :
    wordKeys bot.config.comparer
        ((bot.extendAll w additions).2.knowledge.graph.root.tokens.filterMap vocabularyWord?) =
      wordKeys bot.config.comparer
        ((addedPaths bot.config additions).flatten.filterMap vocabularyWord?) := by
  have hadded : ∀ {entry : List Token × Template},
      entry ∈ additions.filterMap (Addition.entry? bot.config) →
        entry.1 ∈ addedPaths bot.config additions := List.mem_map_of_mem
  rw [graph_extendAll hw]
  -- every token of the graph was added, and for every token that was added there is one that
  -- matches it
  refine Finset.Subset.antisymm ?_ ?_
  · refine wordKeys_subset ?_ fun _ => vocabularyWord?_of_isSet
    intro t ht _
    obtain ⟨entry, hentry, hmem⟩ := Graph.mem_tokens_insertAll ht
    exact ⟨t, List.mem_flatten.2 ⟨_, hadded hentry, hmem⟩, rfl⟩
  · refine wordKeys_subset ?_ fun _ => vocabularyWord?_of_isSet
    intro t ht hplain
    obtain ⟨path, hpath, ht⟩ := List.mem_flatten.1 ht
    obtain ⟨entry, hentry, rfl⟩ := List.mem_map.1 hpath
    obtain ⟨u, hu, hmatches⟩ :=
      @Graph.exists_mem_tokens_insertAll _ bot.config.comparer _ t entry hentry ht hplain
    obtain ⟨other, hother, hmem⟩ := Graph.mem_tokens_insertAll hu
    exact ⟨u, hu, Token.map_key_vocabularyWord?
      (isKnownByText_of_mem_addedPaths (hadded hother) u hmem)
      (isKnownByText_of_mem_addedPaths hpath t ht) (hseparators _ (hadded hother) u hmem)
      (hseparators _ hpath t ht) hmatches⟩

/-- **The vocabulary counts different words.** Let things be added to a bot that knew nothing, and
let the separators only be spelled as they are. Then the vocabulary is the number of keys of the
words of the paths that were added and of the words of the sets, where of a preferred word all
dollar signs at its start are left out. If no preferred word starts with one, these are the words
that the tokens stand for. The vocabulary is the same if the same paths were added in another order
or spelling, and the same sets, with different names, in another order. -/
theorem vocabulary_counts (hw : w.knowledge = bot.initialKnowledge)
    (hseparators : ∀ path ∈ addedPaths bot.config additions, ∀ t ∈ path,
      t.SpellsSeparators bot.config.comparer) :
    let cmp := bot.config.comparer
    let tokens := (addedPaths bot.config additions).flatten
    let after := bot.extendAll w additions
    after.1.vocabulary after.2.knowledge =
        (wordKeys cmp (tokens.filterMap vocabularyWord? ++ after.1.setWords)).card ∧
      ((∀ v, .priority v ∈ tokens → v.toList.head? ≠ some '$') →
        after.1.vocabulary after.2.knowledge =
          (wordKeys cmp (tokens.filterMap Token.ownWord? ++ after.1.setWords)).card) ∧
      ∀ others : List Addition,
        (∀ path ∈ addedPaths bot.config others, ∀ t ∈ path, t.SpellsSeparators cmp) →
        ((addedPaths bot.config others).map (pathKey cmp)).toFinset =
          ((addedPaths bot.config additions).map (pathKey cmp)).toFinset →
        (addedSets others).Perm (addedSets additions) →
        ((addedSets additions).Pairwise fun a b =>
          bot.sets.comparer.key a.1 ≠ bot.sets.comparer.key b.1) →
        (bot.extendAll w others).1.vocabulary (bot.extendAll w others).2.knowledge =
          after.1.vocabulary after.2.knowledge := by
  intro cmp tokens after
  -- the general count holds of any additions, so that two of them can be compared
  have hcount : ∀ {added : List Addition},
      (∀ path ∈ addedPaths bot.config added, ∀ t ∈ path, t.SpellsSeparators cmp) →
      (bot.extendAll w added).1.vocabulary (bot.extendAll w added).2.knowledge =
        (wordKeys cmp ((addedPaths bot.config added).flatten.filterMap vocabularyWord? ++
          (bot.extendAll w added).1.setWords)).card := by
    intro added hadded
    have hcomparer : (bot.extendAll w added).1.config.comparer = cmp := by
      rw [(bot.extendAll_eq w added).1]
    rw [vocabulary_eq_card, hcomparer, wordKeys_append, wordKeys_append,
      wordKeys_tokens hw hadded]
  refine ⟨hcount hseparators, ?_, ?_⟩
  · intro hdollars
    have hwords : tokens.filterMap vocabularyWord? = tokens.filterMap Token.ownWord? := by
      refine List.filterMap_congr fun t ht => ?_
      exact Token.vocabularyWord?_eq_ownWord? fun v hv => hdollars v (hv ▸ ht)
    rw [hcount hseparators, hwords]
  · intro others hothers hpaths hsets hnames
    rw [hcount hothers, hcount hseparators, wordKeys_append, wordKeys_append,
      wordKeys_setWords_congr hsets hnames,
      Finset.Subset.antisymm (wordKeys_addedPaths_subset hothers hseparators hpaths.subset)
        (wordKeys_addedPaths_subset hseparators hothers hpaths.symm.subset)]

end Bot

namespace Samples

/-- A category without a topic that answers a pattern with nothing. -/
def silent (pattern : Pattern) : Addition :=
  .category none { pattern, template := { content := [] } }

/-- Greetings with a preferred word, and a set with a word that is in a pattern, too. -/
def wordy : List Addition :=
  [silent [.word "HELLO", .word "*"], .set "colors" (.ofPhrases .ignoreCase ["red", "light blue"]),
    silent [.word "hello", .word "Red"], silent [.word "$WHO", .word "ARE", .word "YOU"],
    silent [.set "colors"]]

/-- A bot with a price in dollars. -/
def seller : Bot := .new { botProperties := [("price", "$5")] }

def prices : List Addition :=
  [silent [.word "IT", .word "COSTS", .property "price"],
    silent [.word "GIVE", .word "ME", .word "5"]]

/-- One pattern under two spellings of a topic, which is called like a separator. -/
def topics : List Addition :=
  [.category (some "<topic>") { pattern := [.word "HI"], template := { content := [] } },
    .category (some "<TOPIC>") { pattern := [.word "HI"], template := { content := [] } }]

/-- A world in which a bot knows nothing. -/
def blank (bot : Bot) : World :=
  { knowledge := bot.initialKnowledge, reported := false, user := .new bot.config "user", clock := 0
    log := [] }

end Samples

namespace Bot

/-- Seven words, in two orders. -/
theorem vocabulary_counts_colors :
    let bot := Bot.new {}
    let w := Samples.blank bot
    let after := bot.extendAll w Samples.wordy
    let reversed := bot.extendAll w Samples.wordy.reverse
    (wordKeys .ignoreCase ((addedPaths bot.config Samples.wordy).flatten.filterMap
        Token.ownWord? ++ after.1.setWords)).card = 7 ∧
      after.1.vocabulary after.2.knowledge = 7 ∧
      reversed.1.vocabulary reversed.2.knowledge = 7 := by
  intro bot w after reversed
  have hseparators : ∀ path ∈ addedPaths bot.config Samples.wordy, ∀ t ∈ path,
      t.SpellsSeparators bot.config.comparer := by
    decide +kernel
  have hreversed : ∀ path ∈ addedPaths bot.config Samples.wordy.reverse, ∀ t ∈ path,
      t.SpellsSeparators bot.config.comparer := by
    decide +kernel
  have hplain : ∀ t ∈ (addedPaths bot.config Samples.wordy).flatten,
      t = .priority "WHO" ∨ t.text.toList.head? ≠ some '$' := by
    decide +kernel
  have hdollars : ∀ v, .priority v ∈ (addedPaths bot.config Samples.wordy).flatten →
      v.toList.head? ≠ some '$' := by
    intro v hv
    rcases hplain _ hv with h | h
    · rw [Token.priority.inj h]
      decide
    · exact absurd (by simp [Token.text]) h
  have hpaths : ((addedPaths bot.config Samples.wordy.reverse).map (pathKey .ignoreCase)).toFinset =
      ((addedPaths bot.config Samples.wordy).map (pathKey .ignoreCase)).toFinset := by
    decide +kernel
  have hcard : (wordKeys .ignoreCase ((addedPaths bot.config Samples.wordy).flatten.filterMap
      Token.ownWord? ++ after.1.setWords)).card = 7 := by
    decide +kernel
  obtain ⟨-, hcount, horder⟩ := @vocabulary_counts bot w _ rfl hseparators
  have hafter : after.1.vocabulary after.2.knowledge = 7 := (hcount hdollars).trans hcard
  exact ⟨hcard, hafter, (horder Samples.wordy.reverse hreversed hpaths (.refl _)
    (List.pairwise_singleton ..)).trans hafter⟩

/-- **A preferred word that starts with a dollar sign is taken for another word:** a price that is
read as five dollars does not count beside the number five. -/
theorem price_counted_without_dollar :
    let w := Samples.blank Samples.seller
    let after := Samples.seller.extendAll w Samples.prices
    after.1.vocabulary after.2.knowledge = 5 ∧
      (wordKeys .ignoreCase ((addedPaths Samples.seller.config Samples.prices).flatten.filterMap
        Token.ownWord? ++ after.1.setWords)).card = 6 := by
  decide +kernel

/-- A word that is spelled like a separator counts only if it comes first. -/
example :
    let w := Samples.blank (.new {})
    let first := (Bot.new {}).extendAll w Samples.topics
    let second := (Bot.new {}).extendAll w Samples.topics.reverse
    first.1.vocabulary first.2.knowledge = 1 ∧ second.1.vocabulary second.2.knowledge = 2 := by
  decide +kernel

end Bot

end Parley
