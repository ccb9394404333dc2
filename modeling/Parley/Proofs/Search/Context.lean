import Parley.Category
import Parley.Proofs.Search.Matching

/-!
# Categories without a context

A category that says nothing about what was said last or about the topic has a path that ends with
the two separators and a wildcard behind each of them. The wildcards take one word or more, so such
a category matches in every context that has words in both parts, and in no other.

In a graph of such categories a match crosses the first separator where the pattern for the message
ends, because the words of an input are never taken by a separator. What is behind the separator is
the same node in every context, and two searches with different contexts go the same way up to it.

Main results:

* `Node.map_found?_search_behind` — behind the first separator only whether there are words counts;
* `Node.map_found?_search` — a message is answered in the same way in all contexts with words;
* `answer_search_eq` — two contexts with words in both parts give the same answer;
* `search_ne_ok_some` — a context without words in one part gives none.
-/

namespace Parley

open Text

variable {α : Type}

/-! ## Paths without a context -/

/-- What the path of a category without a context has behind the first separator. -/
def behindThat : List Token :=
  [.wildcard .oneOrMore, .word Token.topicSeparator, .wildcard .oneOrMore]

/-- What the path of a category without a context has behind the tokens for the message. -/
def anyContext : List Token := .word Token.thatSeparator :: behindThat

theorem compilePath_none (config : Config) (pattern : Pattern) :
    compilePath config pattern none none none = pattern.tokens config ++ anyContext := rfl

/-- The graphs that are built from categories without a context. -/
inductive Graph.ContextFree (config : Config) (cmp : Comparer) : Graph α → Prop where
  | empty : ContextFree config cmp (.empty cmp)
  | insert {g : Graph α} (pattern : Pattern) (a : α) : ContextFree config cmp g →
      ContextFree config cmp (g.insert (compilePath config pattern none none none) a).1

theorem Graph.ContextFree.builtUnder {config : Config} {cmp : Comparer} {g : Graph α}
    (h : g.ContextFree config cmp) : g.BuiltUnder cmp := by
  induction h with
  | empty => exact .empty
  | insert pattern a _ ih => exact .insert _ a ih

/-! ## Separators in paths -/

namespace Token

variable {cmp : Comparer}

theorem isSeparator_iff_matchesUnder {separator : String} {t : Token} :
    t.IsSeparator cmp separator ↔ (Token.word separator).matchesUnder cmp t = true := by
  rw [matchesUnder_iff, IsSeparator, Comparer.equals_iff_key_eq, eq_comm,
    @eq_comm _ (cmp.key t.text)]
  rfl

theorem IsSeparator.that_ne_topic {t : Token} (hthat : t.IsSeparator cmp thatSeparator)
    (htopic : t.IsSeparator cmp topicSeparator) : False := by
  have hkey : cmp.key thatSeparator = cmp.key topicSeparator := by
    rw [← (cmp.equals_iff_key_eq ..).1 hthat.2, (cmp.equals_iff_key_eq ..).1 htopic.2]
  cases cmp <;> exact absurd hkey (by decide +kernel)

/-- A token that takes words is no separator, because no word of an input is taken by one. -/
theorem Takes.not_isSeparator {sets : SetTable} {t : Token} {ws : List String}
    (h : t.Takes cmp sets ws) {separator : String}
    (hseparator : separator = thatSeparator ∨ separator = topicSeparator) :
    ¬ t.IsSeparator cmp separator := by
  rintro ⟨hset, hequals⟩
  -- the key of a separator starts with a bracket
  have hhead : (cmp.key separator).toList.head? = some '<' := by
    apply Comparer.head?_key
    · rcases hseparator with rfl | rfl <;> rfl
    · decide +kernel
  have hkey := (cmp.equals_iff_key_eq ..).1 hequals
  cases h with
  | @wildcard t w ws plain symbol length =>
    rw [← Wildcard.symbol_of_ofSymbol? symbol, Comparer.key_symbol] at hkey
    rw [← hkey] at hhead
    cases w <;> simp [Wildcard.symbol] at hhead
  | phrase => simp [isSet] at hset
  | @preferred t w plain symbol equals =>
    -- the key of a preferred word starts with a dollar sign
    have hdollar : (cmp.key ("$" ++ w)).toList.head? = some '$' := by
      apply Comparer.head?_key
      · simp
      · decide +kernel
    rw [(cmp.equals_iff_key_eq ..).1 equals, hkey, hhead] at hdollar
    simp at hdollar
  | @word t w plain symbol equals spelling =>
    -- a word that is the same as a separator is reserved
    have hreserved : cmp.equals w separator = true := by
      rw [Comparer.equals_iff_key_eq, (cmp.equals_iff_key_eq ..).1 equals, hkey]
    rcases hseparator with rfl | rfl <;> simp [Node.isReserved, hreserved] at spelling

/-- A token that matches the wildcard for words takes at least one. -/
theorem Takes.ne_nil {sets : SetTable} {t : Token} {ws : List String} (h : t.Takes cmp sets ws)
    (hmatches : (Token.wildcard .oneOrMore).matchesUnder cmp t = true) : ws ≠ [] := by
  obtain ⟨hset, hkey⟩ := matchesUnder_iff.1 hmatches
  -- the token is spelled like the wildcard, and so it is no other one
  rw [text, Comparer.key_symbol, eq_comm, Comparer.key_eq_symbol_iff] at hkey
  cases h with
  | @wildcard t w ws plain symbol length =>
    rw [hkey, Wildcard.ofSymbol?_symbol] at symbol
    obtain rfl := Option.some.inj symbol
    exact List.length_pos_iff.1 length
  | phrase => simp [isSet] at hset
  | preferred => simp
  | word => simp

theorem not_isSeparator_of_matches_wildcard {t : Token} {separator : String}
    (hmatches : (Token.wildcard .oneOrMore).matchesUnder cmp t = true)
    (hseparator : separator = thatSeparator ∨ separator = topicSeparator) :
    ¬ t.IsSeparator cmp separator := by
  rintro ⟨-, hequals⟩
  obtain ⟨-, hkey⟩ := matchesUnder_iff.1 hmatches
  rw [text, Comparer.key_symbol, eq_comm, Comparer.key_eq_symbol_iff] at hkey
  rw [hkey, cmp.equals_comm, Comparer.equals_symbol_iff] at hequals
  rcases hseparator with rfl | rfl <;>
    simp [thatSeparator, topicSeparator, Wildcard.symbol] at hequals

end Token

/-- Each token of a path has a token that matches it in every path that is the same. -/
theorem exists_mem_of_samePath {cmp : Comparer} {p r : List Token} (h : samePath cmp p r = true)
    {u : Token} (hu : u ∈ p) : ∃ t ∈ r, u.matchesUnder cmp t = true := by
  induction p generalizing r with
  | nil => simp at hu
  | cons v p ih =>
    cases r with
    | nil => simp [samePath] at h
    | cons t r =>
      rw [samePath, Bool.and_eq_true] at h
      rcases List.mem_cons.1 hu with rfl | hu
      · exact ⟨t, List.mem_cons_self .., h.1⟩
      · obtain ⟨t', ht', hmatches⟩ := ih h.2 hu
        exact ⟨t', List.mem_cons_of_mem t ht', hmatches⟩

/-! ## Nodes below which paths have no context -/

namespace Node

variable {cmp : Comparer} {n child : Node α} {t : Token}

/-- Whether all paths below a node leave the context open. -/
def OpenEnded (cmp : Comparer) (n : Node α) : Prop :=
  ∀ path entry, n.valueAt? cmp path = some entry →
    ∃ p, samePath cmp (p ++ anyContext) path = true

/-- Whether all paths below a node are what leaves the context open behind the first separator, or
have that separator in them. -/
def OpenBehind (cmp : Comparer) (n : Node α) : Prop :=
  ∀ path entry, n.valueAt? cmp path = some entry →
    samePath cmp behindThat path = true ∨ ∃ t ∈ path, t.IsSeparator cmp Token.thatSeparator

theorem valueAt?_cons_of_step? (hedge : n.step? cmp t = some child) (path : List Token) :
    n.valueAt? cmp (t :: path) = child.valueAt? cmp path := by
  rw [valueAt?_cons, hedge, Option.bind_some]

/-- Behind a token for the message the context is still open. -/
theorem OpenEnded.of_step (hopen : n.OpenEnded cmp) (hedge : n.step? cmp t = some child)
    (ht : ¬ t.IsSeparator cmp Token.thatSeparator) : child.OpenEnded cmp := by
  intro path entry hentry
  rw [← valueAt?_cons_of_step? hedge] at hentry
  obtain ⟨p, hsame⟩ := hopen (t :: path) entry hentry
  cases p with
  | nil =>
    -- the open context starts with the separator, and the token is none
    rw [List.nil_append, anyContext, samePath, Bool.and_eq_true,
      ← Token.isSeparator_iff_matchesUnder] at hsame
    exact absurd hsame.1 ht
  | cons u p =>
    rw [List.cons_append, samePath, Bool.and_eq_true] at hsame
    exact ⟨p, hsame.2⟩

/-- Behind the tokens for a message the context is still open. -/
theorem OpenEnded.of_find? {l : Spans} {sets : SetTable} {ws : List String} {m : Node α}
    (hopen : n.OpenEnded cmp) (hcover : l.Cover cmp sets ws)
    (hfind : n.find? cmp l.tokens = some m) : m.OpenEnded cmp := by
  induction l generalizing n ws with
  | nil => exact Option.some.inj hfind ▸ hopen
  | cons span l ih =>
    obtain ⟨t, vs⟩ := span
    obtain ⟨child, hedge, hfind⟩ := Option.bind_eq_some_iff.1 hfind
    obtain ⟨htakes, hrest, -⟩ := hcover.of_cons
    have hchild := hopen.of_step hedge (htakes.not_isSeparator (Or.inl rfl))
    exact ih hchild hrest hfind

theorem OpenEnded.behind (hopen : n.OpenEnded cmp) (hedge : n.step? cmp t = some child) :
    child.OpenBehind cmp := by
  intro path entry hentry
  rw [← valueAt?_cons_of_step? hedge] at hentry
  obtain ⟨p, hsame⟩ := hopen (t :: path) entry hentry
  cases p with
  | nil =>
    rw [List.nil_append, anyContext, samePath, Bool.and_eq_true] at hsame
    exact Or.inl hsame.2
  | cons u p =>
    -- the separator of the open context is still to come
    rw [List.cons_append, samePath, Bool.and_eq_true] at hsame
    obtain ⟨v, hv, hmatches⟩ := exists_mem_of_samePath hsame.2
      (List.mem_append_right p (List.mem_cons_self ..))
    exact Or.inr ⟨v, hv, Token.isSeparator_iff_matchesUnder.2 hmatches⟩

/-! ## Matches behind the first separator -/

/-- Spans on both sides of the second separator that go along the open context are one on each side,
and neither is empty. -/
theorem ne_nil_of_samePath_behindThat {sets : SetTable} {that topic : Spans} {u : Token}
    {ws vs : List String} (hthat : that.Cover cmp sets ws)
    (hu : u.IsSeparator cmp Token.topicSeparator) (htopic : topic.Cover cmp sets vs)
    (hsame : samePath cmp behindThat (that.tokens ++ u :: topic.tokens) = true) :
    ws ≠ [] ∧ vs ≠ [] := by
  cases that with
  | nil =>
    -- the separator would be the wildcard
    rw [behindThat, Spans.tokens, List.map_nil, List.nil_append, samePath,
      Bool.and_eq_true] at hsame
    exact absurd hu (Token.not_isSeparator_of_matches_wildcard hsame.1 (Or.inr rfl))
  | cons first rest =>
    have hfirst := hthat.takes first (List.mem_cons_self ..)
    rw [behindThat, Spans.tokens, List.map_cons, List.cons_append, samePath,
      Bool.and_eq_true] at hsame
    obtain ⟨hfirstSame, hsame⟩ := hsame
    cases rest with
    | cons second rest =>
      -- a token that takes words would be the separator
      rw [List.map_cons, List.cons_append, samePath, Bool.and_eq_true] at hsame
      have hsecond := hthat.takes second (by simp)
      exact absurd (Token.isSeparator_iff_matchesUnder.2 hsame.1)
        (hsecond.not_isSeparator (Or.inr rfl))
    | nil =>
      rw [List.map_nil, List.nil_append, samePath, Bool.and_eq_true] at hsame
      obtain ⟨-, htopicSame⟩ := hsame
      cases topic with
      | nil => simp [Spans.tokens, samePath] at htopicSame
      | cons last rest =>
        have hlast := htopic.takes last (List.mem_cons_self ..)
        rw [Spans.tokens, List.map_cons, samePath, Bool.and_eq_true] at htopicSame
        -- both wildcards take at least one word
        have hws := hfirst.ne_nil hfirstSame
        have hvs := hlast.ne_nil htopicSame.1
        rw [← hthat.words_eq, ← htopic.words_eq]
        simp [Spans.words, hws, hvs]

/-- A match behind the first separator goes along the open context, so there are words in both
parts, and it adds nothing to the texts taken of the message. -/
theorem of_follow?_behind {q : Query} (hn : n.WellKeyed q.comparer)
    (hopen : n.OpenBehind q.comparer) {p : Progress} {chs : List Choice} {way : Way α}
    (h : n.follow? q (.startOf q.input .that) p chs = some way) :
    q.input.that ≠ [] ∧ q.input.topic ≠ [] ∧
      n.valueAt? q.comparer behindThat = some way.entry ∧
      way.progress.captures.star = p.captures.star := by
  obtain ⟨that, m₁, hthat, hfind₁, hleaves₁⟩ := exists_cover_of_follow? hn h
  rcases hleaves₁ with ⟨hlast, -, -⟩ |
    @⟨_, u, child, chs₁, htopicSeparator, hu, hedge, hkeyed, hfollow⟩
  · cases hlast
  obtain ⟨topic, m₂, htopic, hfind₂, hleaves₂⟩ := exists_cover_of_follow? hkeyed hfollow
  rcases hleaves₂ with ⟨-, hvalue, hprogress⟩ | ⟨hnone, -, -, -, -⟩
  · obtain rfl := Option.some.inj htopicSeparator
    -- the path of the entry is what the spans went along
    have hentry : n.valueAt? q.comparer (that.tokens ++ u :: topic.tokens) = some way.entry := by
      rw [valueAt?_append_cons hfind₁ hedge, valueAt?, hfind₂]
      exact hvalue
    have hsame : samePath q.comparer behindThat (that.tokens ++ u :: topic.tokens) = true := by
      rcases hopen _ _ hentry with hsame | ⟨t, ht, hseparator⟩
      · exact hsame
      · -- a second separator of the first kind is taken by nothing
        exfalso
        rcases List.mem_append.1 ht with ht | ht
        · obtain ⟨span, hspan, rfl⟩ := List.mem_map.1 ht
          exact (hthat.takes span hspan).not_isSeparator (Or.inl rfl) hseparator
        · rcases List.mem_cons.1 ht with rfl | ht
          · exact hseparator.that_ne_topic hu
          · obtain ⟨span, hspan, rfl⟩ := List.mem_map.1 ht
            exact (htopic.takes span hspan).not_isSeparator (Or.inl rfl) hseparator
    obtain ⟨hthatWords, htopicWords⟩ := ne_nil_of_samePath_behindThat hthat hu htopic hsame
    refine ⟨hthatWords, htopicWords, ?_, ?_⟩
    · rw [valueAt?_congr hsame, hentry]
    · rw [hprogress]
      rfl
  · cases hnone

/-- From a node behind whose edge for the wildcard the match goes on at the end of the segment, it
goes on before any words. -/
theorem exists_follow?_of_wildcard {q : Query} {s : Segment} {ws : List String} (hws : ws ≠ [])
    (hedge : n.step? q.comparer (.wildcard .oneOrMore) = some child)
    (hchild : ∀ p, ∃ chs way, child.follow? q { segment := s, ahead := [] } p chs = some way)
    (p : Progress) : ∃ chs way, n.follow? q { segment := s, ahead := ws } p chs = some way := by
  obtain ⟨⟨t, m⟩, hlookup, rfl⟩ := Option.map_eq_some_iff.1 hedge
  have hadvance : n.advance? q { segment := s, ahead := ws } (.wildcard .oneOrMore ws.length) =
      some
        { label := "*", taken? := some (takenText q ws), child := m
          cursor := { segment := s, ahead := [] } } := by
    have hfits : Wildcard.oneOrMore.minWords ≤ ws.length ∧ ws.length ≤ ws.length :=
      ⟨List.length_pos_iff.2 hws, Nat.le_refl _⟩
    rw [Token.text] at hlookup
    rw [advance?, if_pos hfits, hlookup]
    simp [Cursor.skip, Wildcard.symbol]
  obtain ⟨chs, way, hfollow⟩ := hchild
    { trail := p.trail ++ ["*"], captures := p.captures.push s (takenText q ws) }
  refine ⟨.wildcard .oneOrMore ws.length :: chs, way, ?_⟩
  rw [follow?, hadvance, Option.bind_some]
  exact hfollow

/-- Behind the first separator the open context matches wherever there are words in both parts. -/
theorem exists_follow?_behind {q : Query} {entry : α}
    (hentry : n.valueAt? q.comparer behindThat = some entry) (hthat : q.input.that ≠ [])
    (htopic : q.input.topic ≠ []) (p : Progress) :
    ∃ chs way, n.follow? q (.startOf q.input .that) p chs = some way := by
  rw [behindThat, valueAt?_cons] at hentry
  obtain ⟨m₁, hedge₁, hentry⟩ := Option.bind_eq_some_iff.1 hentry
  rw [valueAt?_cons] at hentry
  obtain ⟨m₂, hedge₂, hentry⟩ := Option.bind_eq_some_iff.1 hentry
  rw [valueAt?_cons] at hentry
  obtain ⟨m₃, hedge₃, hvalue⟩ := Option.bind_eq_some_iff.1 hentry
  have hend : ∀ p, ∃ chs way,
      m₃.follow? q { segment := .topic, ahead := [] } p chs = some way := by
    intro p
    rw [valueAt?_nil] at hvalue
    refine ⟨[], { entry, progress := p }, ?_⟩
    rw [follow?, hvalue]
    rfl
  refine exists_follow?_of_wildcard hthat hedge₁ ?_ p
  refine exists_follow?_of_separator (s := .that) rfl ⟨rfl, Comparer.equals_self ..⟩ hedge₂ ?_
  exact exists_follow?_of_wildcard htopic hedge₃ hend

end Node

/-- Whether there are words in both parts of the context. -/
def Input.HasContext (input : Input) : Prop := input.that ≠ [] ∧ input.topic ≠ []

/-- What a way has to say about the message: the entry, and the texts taken of the message. -/
def Way.answer (way : Way α) : α × List String := (way.entry, way.progress.captures.star)

namespace Node

variable {n : Node α}

/-- Behind the first separator, only whether there are words in the context counts. -/
theorem map_found?_search_behind {q : Query} (hn : n.WellKeyed q.comparer)
    (hopen : n.OpenBehind q.comparer) (hcontext : q.input.HasContext) (p : Progress) :
    (n.search q (.startOf q.input .that) p).found?.map Way.answer =
      (n.valueAt? q.comparer behindThat).map fun entry => (entry, p.captures.star) := by
  cases hfound : (n.search q (.startOf q.input .that) p).found? with
  | some way =>
    -- every match has the entry of the open context, also the least one
    obtain ⟨chs, hchs⟩ := found?_search_eq_some_iff.1 hfound
    obtain ⟨-, -, hentry, hstar⟩ := of_follow?_behind hn hopen hchs.follows
    rw [hentry, Option.map_some, Option.map_some, Way.answer, hstar]
  | none =>
    cases hentry : n.valueAt? q.comparer behindThat with
    | none => rfl
    | some entry =>
      -- with words in both parts there is a match, which the search would have found
      obtain ⟨chs, way, hfollow⟩ := exists_follow?_behind hentry hcontext.1 hcontext.2 p
      rw [found?_search_eq_none_iff.1 hfound chs] at hfollow
      simp at hfollow

/-- A choice in the message leads to the same place whatever the context is, until it crosses the
separator. -/
theorem advance?_message (q : Query) (context : Input) (n : Node α) (ahead : List String)
    (ch : Choice) :
    n.advance? { q with input := context } { segment := .message, ahead } ch =
      (n.advance? q { segment := .message, ahead } ch).map fun a =>
        if a.cursor.segment = .message then a
        else { a with cursor := .startOf context .that } := by
  cases ch with
  | preferred =>
    cases ahead with
    | nil => rfl
    | cons w rest =>
      simp only [advance?]
      cases n.child? q.comparer ("$" ++ w) <;> rfl
  | wildcard w k =>
    simp only [advance?]
    split
    · cases n.child? q.comparer w.symbol <;> rfl
    · rfl
  | plain =>
    cases ahead with
    | nil =>
      simp only [advance?, Segment.separator?, Option.bind_some]
      -- the separator is the only edge into the other parts of the input
      cases n.child? q.comparer Token.thatSeparator <;> rfl
    | cons w rest =>
      simp only [advance?]
      split
      · rfl
      · cases n.child? q.comparer w <;> rfl
  | phrase i k =>
    simp only [advance?]
    cases n.sets[i]? with
    | none => rfl
    | some edge =>
      simp only [Option.bind_some]
      cases q.sets.get? edge.1 with
      | none => rfl
      | some set =>
        simp only [Option.bind_some]
        split <;> rfl

/-- **What is found for a message is the same in all contexts that have words.** -/
theorem map_found?_search {q : Query} {context : Input} (hn : n.WellKeyed q.comparer)
    (hopen : n.OpenEnded q.comparer) (hfirst : q.input.HasContext)
    (hsecond : context.HasContext) (ahead : List String) (p : Progress) :
    (n.search q { segment := .message, ahead } p).found?.map Way.answer =
      (n.search { q with input := context } { segment := .message, ahead } p).found?.map
        Way.answer := by
  -- the two searches try the same choices, up to the separator, behind which both find the same
  induction hsize : sizeOf n using Nat.strongRecOn generalizing n ahead p with
  | _ size ih =>
    subst hsize
    have hstop : ∀ input : Input, n.follow? { q with input } { segment := .message, ahead } p [] =
        none := fun _ => rfl
    rw [found?_search, found?_search, hstop context, show n.follow? q _ p [] = none from rfl]
    dsimp only
    rw [List.map_findSome?, List.map_findSome?]
    congr 1
    funext ch
    rw [Function.comp_apply, Function.comp_apply, advance?_message q context]
    cases ha : n.advance? q { segment := .message, ahead } ch with
    | none => rfl
    | some a =>
      obtain ⟨t, hedge, hstep⟩ := advance?_cases hn ha
      have hbelow := hn.of_hasEdge hedge
      rcases hstep with ⟨ws, htakes⟩ | hcrosses
      · -- still in the message: the same node and the same words are ahead
        have hsegment : a.cursor.segment = .message := htakes.segment
        rw [Option.map_some, if_pos hsegment, Option.bind_some, Option.bind_some]
        have hchild := hopen.of_step htakes.edge (htakes.takes.not_isSeparator (Or.inl rfl))
        obtain ⟨label, taken?, child, ⟨segment, rest⟩⟩ := a
        obtain rfl : segment = .message := hsegment
        exact ih _ (sizeOf_lt_of_advance? ha) hbelow hchild rest _ rfl
      · -- across the separator: each search goes on in a context of its own
        have hcursor : a.cursor = .startOf q.input .that := hcrosses.cursor
        have hsegment : ¬ a.cursor.segment = .message := by
          rw [hcursor]
          exact Segment.noConfusion
        rw [Option.map_some, if_neg hsegment, Option.bind_some, Option.bind_some, hcursor]
        have hchild := hopen.behind hcrosses.edge
        have hleft := map_found?_search_behind hbelow hchild hfirst
          (a.progress (Cursor.mk .message ahead).segment p)
        have hright := map_found?_search_behind (q := { q with input := context }) hbelow hchild
          hsecond (a.progress (Cursor.mk .message ahead).segment p)
        exact hleft.trans hright.symm

/-- A match of a message means that there are words in both parts of the context. -/
theorem hasContext_of_follow? {q : Query} (hn : n.WellKeyed q.comparer)
    (hopen : n.OpenEnded q.comparer) {ahead : List String} {p : Progress} {chs : List Choice}
    {way : Way α} (h : n.follow? q { segment := .message, ahead } p chs = some way) :
    q.input.HasContext := by
  obtain ⟨l, m, hcover, hfind, hleaves⟩ := exists_cover_of_follow? hn h
  rcases hleaves with ⟨hlast, -, -⟩ |
    @⟨_, t, child, chs₁, hseparator, ht, hedge, hkeyed, hfollow⟩
  · cases hlast
  · have hbehind := (hopen.of_find? hcover hfind).behind hedge
    obtain ⟨hthat, htopic, -, -⟩ := of_follow?_behind hkeyed hbehind hfollow
    exact ⟨hthat, htopic⟩

end Node

theorem Graph.ContextFree.openEnded {config : Config} {cmp : Comparer} {g : Graph α}
    (h : g.ContextFree config cmp) : g.root.OpenEnded cmp := by
  induction h with
  | empty =>
    intro path entry hentry
    rw [Graph.empty, Node.valueAt?_empty] at hentry
    simp at hentry
  | @insert g pattern a hg ih =>
    intro path entry hentry
    rw [Graph.insert, hg.builtUnder.comparer_eq, Node.valueAt?_update_setEntry,
      compilePath_none] at hentry
    split at hentry
    · -- the entry that was added has the path of its category
      next hsame => exact ⟨pattern.tokens config, hsame⟩
    · exact ih path entry hentry

/-! ## Searches -/

/-- What a search has to say about the message: why it was given up, or the entry found, the texts
taken of the message, and the graph. -/
def SearchResult.answer (r : SearchResult α) : Except Abort (Option (α × List String × Nat)) :=
  r.result.map fun found? =>
    found?.map fun found => (found.entry, found.captures.star, found.root)

namespace Graph

variable {config : Config} {cmp : Comparer} {options : SearchOptions} {g : Graph α}

theorem ContextFree.map_firstMatch? (hg : g.ContextFree config cmp) (options : SearchOptions)
    {first second : Input} (hmessage : first.message = second.message) (hfirst : first.HasContext)
    (hsecond : second.HasContext) :
    (g.firstMatch? options first).map Way.answer =
      (g.firstMatch? options second).map Way.answer := by
  have hkeyed := hg.builtUnder.wellKeyed
  have hopen := hg.openEnded
  rw [← hg.builtUnder.comparer_eq] at hkeyed hopen
  have hsame := Node.map_found?_search (q := options.query g.comparer first) hkeyed hopen hfirst
    hsecond first.message {}
  rw [firstMatch?, firstMatch?]
  refine hsame.trans ?_
  rw [hmessage]
  rfl

theorem ContextFree.firstMatch?_eq_none (hg : g.ContextFree config cmp) {input : Input}
    (hinput : ¬ input.HasContext) : g.firstMatch? options input = none := by
  have hkeyed := hg.builtUnder.wellKeyed
  have hopen := hg.openEnded
  rw [← hg.builtUnder.comparer_eq] at hkeyed hopen
  rw [firstMatch?_eq_none_iff]
  intro chs
  cases hmatch : g.match? options input chs with
  | none => rfl
  | some way =>
    have hcontext := Node.hasContext_of_follow? (q := options.query g.comparer input) hkeyed hopen
      hmatch
    exact absurd hcontext hinput

end Graph

theorem answer_searchFrom_eq {config : Config} {cmp : Comparer} {options : SearchOptions}
    {graphs : List (Graph α)} (hgraphs : ∀ g ∈ graphs, g.ContextFree config cmp)
    {first second : Input} (hmessage : first.message = second.message)
    (hfirst : first.HasContext) (hsecond : second.HasContext) (root : Nat) :
    (searchFrom options first root graphs).answer =
      (searchFrom options second root graphs).answer := by
  induction graphs generalizing root with
  | nil => rfl
  | cons g graphs ih =>
    cases htime : options.expired with
    | true => simp [searchFrom, htime, SearchResult.answer]
    | false =>
      have hrest := ih (fun b hb => hgraphs b (List.mem_cons_of_mem g hb)) (root + 1)
      have hsame := (hgraphs g (List.mem_cons_self ..)).map_firstMatch? options hmessage hfirst
        hsecond
      rw [SearchResult.answer, SearchResult.answer, result_searchFrom_cons _ _ _ _ htime,
        result_searchFrom_cons _ _ _ _ htime]
      -- the graph has a match in both contexts or in none of them
      cases h₁ : g.firstMatch? options first with
      | none =>
        cases h₂ : g.firstMatch? options second with
        | none => exact hrest
        | some way₂ => simp [h₁, h₂] at hsame
      | some way₁ =>
        cases h₂ : g.firstMatch? options second with
        | none => simp [h₁, h₂] at hsame
        | some way₂ =>
          simp only [h₁, h₂, Option.map_some, Option.some.injEq, Way.answer, Prod.mk.injEq] at hsame
          simp [Except.map, Way.found, hsame]

/-- In two contexts that have words in both parts, a search of graphs without contexts gives the
same answer. -/
theorem answer_search_eq {config : Config} {cmp : Comparer} {options : SearchOptions}
    {graphs : List (Graph α)} (hgraphs : ∀ g ∈ graphs, g.ContextFree config cmp)
    {first second : Input} (hmessage : first.message = second.message)
    (hfirst : first.HasContext) (hsecond : second.HasContext) :
    (search options graphs first).answer = (search options graphs second).answer := by
  rw [search, search]
  split
  · rfl
  · exact answer_searchFrom_eq hgraphs hmessage hfirst hsecond 0

/-- In a context without words in one part, a search of graphs without contexts finds nothing. -/
theorem search_ne_ok_some {config : Config} {cmp : Comparer} {options : SearchOptions}
    {graphs : List (Graph α)} (hgraphs : ∀ g ∈ graphs, g.ContextFree config cmp) {input : Input}
    (hinput : ¬ input.HasContext) (found : Found α) :
    (search options graphs input).result ≠ .ok (some found) := by
  intro hresult
  have hdepth := depth_le_of_search_eq_ok hresult
  rw [result_search _ _ hdepth] at hresult
  cases htime : options.expired with
  | true => cases graphs <;> simp [searchFrom, htime] at hresult
  | false =>
    obtain ⟨before, g, after, way, rfl, -, hg, -⟩ := (result_searchFrom_eq_some_iff htime).1 hresult
    rw [(hgraphs g (by simp)).firstMatch?_eq_none hinput] at hg
    simp at hg

end Parley
