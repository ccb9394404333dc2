import Parley.Proofs.Insertion
import Parley.Proofs.Keys
import Parley.Proofs.Search.Priority

/-!
# What a match is

A path of tokens matches an input if the words of the input can be cut into spans, one for each
token, so that every token takes its span and the separators are taken by separators. This says
nothing about edges, keys or an order in which anything is tried.

A search of graphs that were built finds an entry exactly if the path of an entry matches, and the
texts that it keeps are those of such a cut. The two halves follow one step at a time: a choice that
leads on takes a span of its segment or crosses the separator behind it, and an edge for a token
that takes the words ahead is reached by a choice.

Main results:

* `Node.advance?_cases` — what a choice that leads on does to the words ahead;
* `Node.exists_advance?_of_takes` — an edge whose token takes the words ahead is reached;
* `Graph.exists_cut_of_match?` — a match is a cut of the input along the path of an entry;
* `search_eq_ok_iff_exists_cut` — a search is sound and complete, with the texts that a cut takes.
-/

namespace Parley

open Text

variable {α : Type}

/-! ## Cuts of an input -/

namespace Token

/-- Whether a token keeps the text that it takes, as wildcards and sets do. -/
def isCapturing (t : Token) : Bool :=
  t.isSet || (Wildcard.ofSymbol? t.text).isSome

/-- The text that a token keeps of the words it takes. -/
def captured? (default : String) (t : Token) (ws : List String) : Option String :=
  if t.isCapturing then some (if ws.isEmpty then default else unwords ws) else none

/-- Whether a token takes a span of words. What kind of token it is goes by its text, so that a word
that is spelled like a wildcard is one. -/
inductive Takes (cmp : Comparer) (sets : SetTable) : Token → List String → Prop where
  | wildcard {t : Token} {w : Wildcard} {ws : List String} (plain : t.isSet = false)
      (symbol : Wildcard.ofSymbol? t.text = some w) (length : w.minWords ≤ ws.length) :
      Takes cmp sets t ws
  | phrase {name : String} {set : PhraseSet} {ws : List String} (get : sets.get? name = some set)
      (ne_nil : ws ≠ []) (contains : set.contains (unwords ws) = true) :
      Takes cmp sets (.set name) ws
  | preferred {t : Token} {w : String} (plain : t.isSet = false)
      (symbol : Wildcard.ofSymbol? t.text = none) (equals : cmp.equals ("$" ++ w) t.text = true) :
      Takes cmp sets t [w]
  | word {t : Token} {w : String} (plain : t.isSet = false)
      (symbol : Wildcard.ofSymbol? t.text = none) (equals : cmp.equals w t.text = true)
      (spelling : Node.isReserved cmp w = false) : Takes cmp sets t [w]

/-- Whether a token is the given separator. -/
def IsSeparator (cmp : Comparer) (separator : String) (t : Token) : Prop :=
  t.isSet = false ∧ cmp.equals t.text separator = true

end Token

/-- Tokens, each with the words that it takes. -/
abbrev Spans := List (Token × List String)

namespace Spans

/-- The tokens of spans. -/
def tokens (l : Spans) : List Token := l.map Prod.fst

/-- The words of spans. -/
def words (l : Spans) : List String := l.flatMap Prod.snd

/-- The tokens of spans as they are written. -/
def trail (l : Spans) : List String := l.tokens.map Token.display

/-- The texts that the tokens of spans keep. -/
def captured (default : String) (l : Spans) : List String :=
  l.filterMap fun (t, ws) => t.captured? default ws

/-- Whether spans cut words in such a way that every token takes its span. -/
structure Cover (cmp : Comparer) (sets : SetTable) (l : Spans) (ws : List String) : Prop where
  words_eq : l.words = ws
  takes : ∀ span ∈ l, span.1.Takes cmp sets span.2

theorem captured_cons (default : String) (t : Token) (ws : List String) (l : Spans) :
    captured default ((t, ws) :: l) = (t.captured? default ws).toList ++ captured default l := by
  rw [captured, List.filterMap_cons]
  dsimp only
  cases t.captured? default ws <;> rfl

theorem cover_nil (cmp : Comparer) (sets : SetTable) : Cover cmp sets [] [] :=
  ⟨rfl, by simp⟩

/-- In front of a cover there may be one more span. -/
theorem Cover.cons {cmp : Comparer} {sets : SetTable} {t : Token} {ws rest : List String}
    {l : Spans} (ht : t.Takes cmp sets ws) (hl : Cover cmp sets l rest) :
    Cover cmp sets ((t, ws) :: l) (ws ++ rest) := by
  refine ⟨?_, ?_⟩
  · rw [← hl.words_eq]
    rfl
  · intro span hspan
    rcases List.mem_cons.1 hspan with rfl | hspan
    · exact ht
    · exact hl.takes span hspan

/-- Behind the first span of a cover, the other spans cover the words that are left. -/
theorem Cover.of_cons {cmp : Comparer} {sets : SetTable} {t : Token} {vs ws : List String}
    {l : Spans} (h : Cover cmp sets ((t, vs) :: l) ws) :
    t.Takes cmp sets vs ∧ Cover cmp sets l (words l) ∧ ws = vs ++ words l := by
  refine ⟨h.takes (t, vs) (List.mem_cons_self ..), ⟨rfl, ?_⟩, h.words_eq.symm⟩
  intro span hspan
  exact h.takes span (List.mem_cons_of_mem _ hspan)

end Spans

/-- A cut of an input along a path: spans for its three segments, and the tokens that take the
separators between them. -/
structure Cut where
  message : Spans
  thatToken : Token
  that : Spans
  topicToken : Token
  topic : Spans

namespace Cut

/-- All spans of a cut, with those of the separators. -/
def spans (cut : Cut) : Spans :=
  cut.message ++ (cut.thatToken, [Token.thatSeparator]) ::
    (cut.that ++ (cut.topicToken, [Token.topicSeparator]) :: cut.topic)

/-- The path that a cut goes along. -/
def path (cut : Cut) : List Token := cut.spans.tokens

/-- Whether a cut is one of an input in which every token takes its span. -/
structure Fits (cmp : Comparer) (sets : SetTable) (input : Input) (cut : Cut) : Prop where
  message : cut.message.Cover cmp sets input.message
  thatToken : cut.thatToken.IsSeparator cmp Token.thatSeparator
  that : cut.that.Cover cmp sets input.that
  topicToken : cut.topicToken.IsSeparator cmp Token.topicSeparator
  topic : cut.topic.Cover cmp sets input.topic

/-- The texts that the tokens of a cut keep. -/
def captures (default : String) (cut : Cut) : Captures :=
  { star := cut.message.captured default
    thatStar := cut.that.captured default
    topicStar := cut.topic.captured default }

/-- The tokens of a cut as they are written, with the separators written in the one way. -/
def trail (cut : Cut) : List String :=
  cut.message.trail ++ Token.thatSeparator ::
    (cut.that.trail ++ Token.topicSeparator :: cut.topic.trail)

/-- How far a search has come at the end of a cut. -/
def progress (default : String) (cut : Cut) : Progress :=
  { trail := cut.trail, captures := cut.captures default }

theorem path_eq (cut : Cut) :
    cut.path = cut.message.tokens ++ cut.thatToken ::
      (cut.that.tokens ++ cut.topicToken :: cut.topic.tokens) := by
  simp [path, spans, Spans.tokens]

end Cut

/-! ## Texts added to captures -/

namespace Captures

/-- Adds texts that were taken in a segment. -/
def pushAll (c : Captures) (s : Segment) (texts : List String) : Captures :=
  match s with
  | .message => { c with star := c.star ++ texts }
  | .that => { c with thatStar := c.thatStar ++ texts }
  | .topic => { c with topicStar := c.topicStar ++ texts }

@[simp] theorem pushAll_nil (c : Captures) (s : Segment) : c.pushAll s [] = c := by
  cases s <;> simp [pushAll]

theorem pushAll_push (c : Captures) (s : Segment) (text : String) (texts : List String) :
    (c.push s text).pushAll s texts = c.pushAll s (text :: texts) := by
  cases s <;> simp [pushAll, push]

end Captures

/-- The progress behind spans of a segment. -/
def Progress.past (default : String) (s : Segment) (l : Spans) (p : Progress) : Progress :=
  { trail := p.trail ++ l.trail, captures := p.captures.pushAll s (l.captured default) }

@[simp] theorem Progress.past_nil (default : String) (s : Segment) (p : Progress) :
    p.past default s [] = p := by
  rw [past, Spans.trail, Spans.tokens, List.map_nil, List.map_nil, List.append_nil]
  exact congrArg (Progress.mk p.trail) (p.captures.pushAll_nil s)

/-! ## Texts of edges -/

theorem Token.display_of_plain {t : Token} (plain : t.isSet = false) : t.display = t.text := by
  cases t with
  | set name => cases plain
  | word w => rfl
  | priority w => rfl
  | wildcard w => rfl

namespace Comparer

/-- A text in front of which there is a dollar sign is no symbol, however it is spelled. -/
theorem ofSymbol?_eq_none_of_equals_preferred {cmp : Comparer} {w text : String}
    (h : cmp.equals ("$" ++ w) text = true) : Wildcard.ofSymbol? text = none := by
  cases hsymbol : Wildcard.ofSymbol? text with
  | none => rfl
  | some v =>
    -- a symbol is one character, and it is not the dollar sign
    rw [← Wildcard.symbol_of_ofSymbol? hsymbol, equals_symbol_iff] at h
    have hhead := congrArg (fun s => s.toList.head?) h
    cases v <;> simp [Wildcard.symbol] at hhead

/-- A text that is the same as a word which is not reserved is no symbol. -/
theorem ofSymbol?_eq_none_of_equals {cmp : Comparer} {w text : String}
    (h : cmp.equals w text = true) (hw : Node.isReserved cmp w = false) :
    Wildcard.ofSymbol? text = none := by
  cases hsymbol : Wildcard.ofSymbol? text with
  | none => rfl
  | some v =>
    rw [← Wildcard.symbol_of_ofSymbol? hsymbol, equals_symbol_iff] at h
    subst h
    simp [Node.isReserved] at hw

end Comparer

/-! ## Single steps -/

namespace Advance

/-- Going along an edge whose token takes the next words of the segment. -/
structure TakesWords (q : Query) (n : Node α) (c : Cursor) (t : Token) (ws : List String)
    (a : Advance α) : Prop where
  edge : n.step? q.comparer t = some a.child
  takes : t.Takes q.comparer q.sets ws
  ahead : c.ahead = ws ++ a.cursor.ahead
  segment : a.cursor.segment = c.segment
  label : a.label = t.display
  taken : a.taken? = t.captured? q.defaultWildcard ws

/-- Going along an edge whose token is the separator behind the segment, at the segment's end. -/
structure Crosses (q : Query) (n : Node α) (c : Cursor) (t : Token) (a : Advance α) : Prop where
  edge : n.step? q.comparer t = some a.child
  behind : c.segment.separator? = some a.label
  separator : t.IsSeparator q.comparer a.label
  ahead : c.ahead = []
  cursor : a.cursor = .startOf q.input c.segment.advance
  taken : a.taken? = none

/-- The progress behind more spans, after the words were taken, is the one behind all of them. -/
theorem TakesWords.past_progress {q : Query} {n : Node α} {c : Cursor} {t : Token}
    {ws : List String} {a : Advance α} (h : a.TakesWords q n c t ws) (p : Progress) (l : Spans) :
    (a.progress c.segment p).past q.defaultWildcard c.segment l =
      p.past q.defaultWildcard c.segment ((t, ws) :: l) := by
  rw [Progress.past, Progress.past, progress, h.taken, h.label, Spans.captured_cons]
  congr 1
  · simp [Spans.trail, Spans.tokens]
  · cases t.captured? q.defaultWildcard ws with
    | none => rfl
    | some text => exact p.captures.pushAll_push c.segment text _

end Advance

namespace Node

variable {q : Query} {n : Node α} {c : Cursor}

theorem captured?_of_not_capturing {t : Token} (default : String) (ws : List String)
    (plain : t.isSet = false) (symbol : Wildcard.ofSymbol? t.text = none) :
    t.captured? default ws = none := by
  simp [Token.captured?, Token.isCapturing, plain, symbol]

theorem captured?_of_capturing (q : Query) {t : Token} (ws : List String)
    (h : t.isCapturing = true) :
    t.captured? q.defaultWildcard ws = some (takenText q ws) := by
  rw [Token.captured?, if_pos h]
  cases ws <;> rfl

/-- An edge for a word leads past one word of the segment, and nothing is kept of it. -/
theorem takesWords_of_child? {s : Segment} {text w : String} {rest : List String} {t : Token}
    {child : Node α} (hn : n.WellKeyed q.comparer)
    (hchild : n.child? q.comparer text = some (t, child))
    (symbol : Wildcard.ofSymbol? t.text = none) (takes : t.Takes q.comparer q.sets [w]) :
    Advance.TakesWords q n { segment := s, ahead := w :: rest } t [w]
      { label := t.text, taken? := none, child, cursor := { segment := s, ahead := rest } } := by
  obtain ⟨plain, -, hedge, -⟩ := hn.of_child? hchild
  have hkept := captured?_of_not_capturing q.defaultWildcard [w] plain symbol
  exact ⟨hedge, takes, rfl, rfl, (Token.display_of_plain plain).symm, hkept.symm⟩

/-- An edge for a wildcard or a set leads past a span of the segment, which is kept. -/
theorem takesWords_of_take {s : Segment} {ahead : List String} {k : Nat} {label : String}
    {t : Token} {child : Node α} (hedge : n.step? q.comparer t = some child)
    (takes : t.Takes q.comparer q.sets (ahead.take k)) (hcapturing : t.isCapturing = true)
    (hlabel : label = t.display) :
    Advance.TakesWords q n { segment := s, ahead } t (ahead.take k)
      { label, taken? := some (takenText q (ahead.take k)), child
        cursor := { segment := s, ahead := ahead.drop k } } := by
  have hkept := captured?_of_capturing q (ahead.take k) hcapturing
  exact ⟨hedge, takes, (List.take_append_drop k ahead).symm, rfl, hlabel, hkept.symm⟩

/-- **A choice that leads on goes along an edge, and takes a span of its segment or crosses the
separator behind the segment.** -/
theorem advance?_cases (hn : n.WellKeyed q.comparer) {ch : Choice} {a : Advance α}
    (h : n.advance? q c ch = some a) :
    ∃ t, n.HasEdge t a.child ∧ ((∃ ws, a.TakesWords q n c t ws) ∨ a.Crosses q n c t) := by
  obtain ⟨s, ahead⟩ := c
  cases ch with
  | preferred =>
    cases ahead with
    | nil => simp [advance?] at h
    | cons w rest =>
      obtain ⟨⟨t, child⟩, hchild, rfl⟩ := Option.map_eq_some_iff.1 h
      obtain ⟨hset, hkey, -, -⟩ := hn.of_child? hchild
      have hequals : q.comparer.equals ("$" ++ w) t.text = true := by
        rw [Comparer.equals_iff_key_eq, hkey]
      have hsymbol := Comparer.ofSymbol?_eq_none_of_equals_preferred hequals
      have htakes : t.Takes q.comparer q.sets [w] := .preferred hset hsymbol hequals
      exact ⟨t, .of_child? hchild, Or.inl ⟨[w], takesWords_of_child? hn hchild hsymbol htakes⟩⟩
  | wildcard w k =>
    rw [advance?] at h
    split at h
    · next hk =>
      obtain ⟨⟨t, child⟩, hchild, rfl⟩ := Option.map_eq_some_iff.1 h
      obtain ⟨hset, hkey, hedge, -⟩ := hn.of_child? hchild
      -- only its symbol has the key of a wildcard, so the token is the wildcard
      rw [Comparer.key_symbol, Comparer.key_eq_symbol_iff] at hkey
      have hsymbol : Wildcard.ofSymbol? t.text = some w := by
        rw [hkey, Wildcard.ofSymbol?_symbol]
      have hcapturing : t.isCapturing = true := by
        simp [Token.isCapturing, hsymbol]
      have htakes : t.Takes q.comparer q.sets (ahead.take k) := by
        refine .wildcard hset hsymbol ?_
        rw [List.length_take]
        exact Nat.le_min.2 ⟨hk.1, Nat.le_trans hk.1 hk.2⟩
      have hlabel : w.symbol = t.display := by
        rw [Token.display_of_plain hset, hkey]
      refine ⟨t, .of_child? hchild, Or.inl ⟨ahead.take k, ?_⟩⟩
      exact takesWords_of_take hedge htakes hcapturing hlabel
    · simp at h
  | plain =>
    cases ahead with
    | nil =>
      -- no word is left, so that the choice is the separator
      obtain ⟨separator, hseparator, h⟩ := Option.bind_eq_some_iff.1 h
      obtain ⟨⟨t, child⟩, hchild, rfl⟩ := Option.map_eq_some_iff.1 h
      obtain ⟨hset, hkey, hedge, -⟩ := hn.of_child? hchild
      refine ⟨t, .of_child? hchild, Or.inr ⟨hedge, hseparator, ⟨hset, ?_⟩, rfl, rfl, rfl⟩⟩
      rw [Comparer.equals_iff_key_eq, hkey]
    | cons w rest =>
      rw [advance?] at h
      dsimp only at h
      split at h
      · simp at h
      · next hplain =>
        obtain ⟨⟨t, child⟩, hchild, rfl⟩ := Option.map_eq_some_iff.1 h
        obtain ⟨hset, hkey, -, -⟩ := hn.of_child? hchild
        have hequals : q.comparer.equals w t.text = true := by
          rw [Comparer.equals_iff_key_eq, hkey]
        have hword := Bool.eq_false_iff.2 hplain
        have hsymbol := Comparer.ofSymbol?_eq_none_of_equals hequals hword
        have htakes : t.Takes q.comparer q.sets [w] := .word hset hsymbol hequals hword
        exact ⟨t, .of_child? hchild, Or.inl ⟨[w], takesWords_of_child? hn hchild hsymbol htakes⟩⟩
  | phrase i k =>
    obtain ⟨⟨name, child⟩, hi, h⟩ := Option.bind_eq_some_iff.1 h
    obtain ⟨set, hget, h⟩ := Option.bind_eq_some_iff.1 h
    split at h
    · next hk =>
      obtain ⟨hpos, hle, -, hcontains⟩ := hk
      obtain rfl := Option.some.inj h
      have hmem := List.mem_of_getElem? hi
      obtain ⟨hedge, -⟩ := hn.of_sets hmem
      have hne : ahead.take k ≠ [] := by
        rw [← List.length_pos_iff, List.length_take]
        exact Nat.lt_min.2 ⟨hpos, Nat.lt_of_lt_of_le hpos hle⟩
      have htaken := takenText_of_ne_nil q hne
      have htakes : (Token.set name).Takes q.comparer q.sets (ahead.take k) :=
        .phrase hget hne hcontains
      rw [← htaken]
      exact ⟨.set name, .set hmem, Or.inl ⟨ahead.take k, takesWords_of_take hedge htakes rfl rfl⟩⟩
    · simp at h

/-- **An edge whose token takes the next words is reached by a choice.** No set contains a phrase
that the search does not try, because the bound on its words was computed from its phrases. -/
theorem exists_advance?_of_takes (hsets : q.sets.BuiltUnder q.comparer)
    (hwords : ∀ w ∈ c.ahead, IsWord w) {t : Token} {ws rest : List String}
    {child : Node α} (hedge : n.step? q.comparer t = some child)
    (htakes : t.Takes q.comparer q.sets ws) (hahead : c.ahead = ws ++ rest) :
    ∃ ch a, n.advance? q c ch = some a ∧ a.child = child ∧
      a.cursor = { segment := c.segment, ahead := rest } := by
  obtain ⟨s, ahead⟩ := c
  subst hahead
  cases htakes with
  | @wildcard t w ws plain symbol length =>
    rw [step?_of_plain plain, ← Wildcard.symbol_of_ofSymbol? symbol] at hedge
    obtain ⟨⟨u, m⟩, hchild, rfl⟩ := Option.map_eq_some_iff.1 hedge
    refine ⟨.wildcard w ws.length, ?_⟩
    rw [advance?, if_pos ⟨length, by simp⟩, hchild]
    exact ⟨_, rfl, rfl, by simp [Cursor.skip]⟩
  | @phrase name set ws get ne_nil contains =>
    -- the edge stands under a name that is the same, for which the table has the same set
    obtain ⟨⟨m, k⟩, hfind, rfl⟩ := Option.map_eq_some_iff.1 hedge
    obtain ⟨i, hi⟩ := List.mem_iff_getElem?.1 (List.mem_of_find?_eq_some hfind)
    have hname : q.comparer.equals m name = true := by
      have hsome := List.find?_some hfind
      exact hsome
    have hget : q.sets.get? m = some set := by
      rw [SetTable.get?_congr (hsets.comparer_eq ▸ hname), get]
    have hphrase : ∀ w ∈ ws, IsWord w := by
      intro w hw
      exact hwords w (List.mem_append_left rest hw)
    have hbound : ws.length ≤ set.maxWords :=
      PhraseSet.length_le_maxWords (hsets.of_get? get) hphrase ne_nil contains
    have hpos : 1 ≤ ws.length := List.length_pos_iff.2 ne_nil
    refine ⟨.phrase i ws.length, ?_⟩
    rw [advance?, hi, Option.bind_some]
    dsimp only
    rw [hget, Option.bind_some, if_pos ⟨hpos, by simp, hbound, by simpa using contains⟩]
    exact ⟨_, rfl, rfl, by simp [Cursor.skip]⟩
  | @preferred t w plain symbol equals =>
    rw [step?_of_plain plain, ← child?_congr equals] at hedge
    obtain ⟨⟨u, m⟩, hchild, rfl⟩ := Option.map_eq_some_iff.1 hedge
    refine ⟨.preferred, ?_⟩
    rw [advance?, List.singleton_append]
    dsimp only
    rw [hchild]
    exact ⟨_, rfl, rfl, rfl⟩
  | @word t w plain symbol equals spelling =>
    rw [step?_of_plain plain, ← child?_congr equals] at hedge
    obtain ⟨⟨u, m⟩, hchild, rfl⟩ := Option.map_eq_some_iff.1 hedge
    refine ⟨.plain, ?_⟩
    rw [advance?, List.singleton_append]
    dsimp only
    rw [spelling, if_neg Bool.false_ne_true, hchild]
    exact ⟨_, rfl, rfl, rfl⟩

/-! ## Whole segments -/

/-- How a way goes on from a node behind the last word of a segment, with the progress made so far:
it ends with the entry of the node, or it crosses the separator and goes on in the next segment. -/
inductive Leaves (q : Query) (n : Node α) (s : Segment) (p : Progress) (way : Way α) : Prop where
  | stops (last : s = .topic) (value : n.value? = some way.entry) (progress : way.progress = p) :
      Leaves q n s p way
  | crosses {separator : String} {t : Token} {child : Node α} {chs : List Choice}
      (behind : s.separator? = some separator) (token : t.IsSeparator q.comparer separator)
      (edge : n.step? q.comparer t = some child) (keyed : child.WellKeyed q.comparer)
      (follows : child.follow? q (.startOf q.input s.advance)
        { p with trail := p.trail ++ [separator] } chs = some way) :
      Leaves q n s p way

/-- The choices of a match up to the end of a segment take spans that cut the words ahead. -/
theorem exists_cover_of_follow? (hn : n.WellKeyed q.comparer) {p : Progress} {chs : List Choice}
    {way : Way α} (h : n.follow? q c p chs = some way) :
    ∃ l m, Spans.Cover q.comparer q.sets l c.ahead ∧
      n.find? q.comparer (Spans.tokens l) = some m ∧
      m.Leaves q c.segment (p.past q.defaultWildcard c.segment l) way := by
  -- induction on the choices; each takes one span, until one crosses the separator
  induction chs generalizing n c p with
  | nil =>
    rw [follow?] at h
    split at h
    · next hend =>
      -- the match ends here, at the end of the topic
      rw [Cursor.atEnd, Bool.and_eq_true, beq_iff_eq, List.isEmpty_iff] at hend
      obtain ⟨entry, hvalue, rfl⟩ := Option.map_eq_some_iff.1 h
      refine ⟨[], n, ?_, rfl, .stops hend.1 hvalue ?_⟩
      · rw [hend.2]
        exact Spans.cover_nil ..
      · exact (p.past_nil ..).symm
    · simp at h
  | cons ch chs ih =>
    obtain ⟨a, ha, hfollow⟩ := Option.bind_eq_some_iff.1 h
    obtain ⟨t, hedge, hstep⟩ := advance?_cases hn ha
    have hbelow := hn.of_hasEdge hedge
    rcases hstep with ⟨ws, htakes⟩ | hcrosses
    · -- one more span in front of those behind it
      obtain ⟨l, m, hcover, hfind, hleaves⟩ := ih hbelow hfollow
      refine ⟨(t, ws) :: l, m, ?_, ?_, ?_⟩
      · rw [htakes.ahead]
        exact .cons htakes.takes hcover
      · rw [Spans.tokens, List.map_cons, find?, htakes.edge]
        exact hfind
      · rw [htakes.segment, htakes.past_progress] at hleaves
        exact hleaves
    · -- no spans are left in this segment
      refine ⟨[], n, ?_, rfl, ?_⟩
      · rw [hcrosses.ahead]
        exact Spans.cover_nil ..
      · rw [Advance.progress, hcrosses.taken, hcrosses.cursor] at hfollow
        rw [Progress.past_nil]
        exact .crosses hcrosses.behind hcrosses.separator hcrosses.edge hbelow hfollow

/-- From a node behind which the match goes on after the segment, it goes on before spans that cut
the words ahead. -/
theorem exists_follow?_of_cover (hsets : q.sets.BuiltUnder q.comparer) {s : Segment} {l : Spans}
    {ws : List String} (hwords : ∀ w ∈ ws, IsWord w)
    (hcover : Spans.Cover q.comparer q.sets l ws) {m : Node α}
    (hfind : n.find? q.comparer (Spans.tokens l) = some m)
    (hm : ∀ p, ∃ chs way, m.follow? q { segment := s, ahead := [] } p chs = some way)
    (p : Progress) : ∃ chs way, n.follow? q { segment := s, ahead := ws } p chs = some way := by
  -- on the spans of the segment: each takes its words at one edge, and the rest is covered below
  induction l generalizing n ws p with
  | nil =>
    obtain rfl : n = m := Option.some.inj hfind
    obtain rfl : [] = ws := hcover.words_eq
    exact hm p
  | cons span l ih =>
    obtain ⟨t, vs⟩ := span
    obtain ⟨child, hedge, hfind⟩ := Option.bind_eq_some_iff.1 hfind
    obtain ⟨htakes, hrest, hsplit⟩ := hcover.of_cons
    obtain ⟨ch, a, ha, rfl, hcursor⟩ :=
      exists_advance?_of_takes (c := { segment := s, ahead := ws }) hsets hwords hedge htakes hsplit
    have hwords' : ∀ w ∈ Spans.words l, IsWord w := by
      intro w hw
      rw [hsplit] at hwords
      exact hwords w (List.mem_append_right vs hw)
    obtain ⟨chs, way, hfollow⟩ := ih hwords' hrest hfind (a.progress s p)
    refine ⟨ch :: chs, way, ?_⟩
    rw [follow?, ha, Option.bind_some, hcursor]
    exact hfollow

/-- From a node behind whose edge for the separator the match goes on, it goes on at the end of the
segment. -/
theorem exists_follow?_of_separator {s : Segment} {separator : String} {t : Token} {child : Node α}
    (hseparator : s.separator? = some separator) (ht : t.IsSeparator q.comparer separator)
    (hedge : n.step? q.comparer t = some child)
    (hchild : ∀ p, ∃ chs way, child.follow? q (.startOf q.input s.advance) p chs = some way)
    (p : Progress) : ∃ chs way, n.follow? q { segment := s, ahead := [] } p chs = some way := by
  rw [step?_of_plain ht.1, child?_congr ht.2] at hedge
  obtain ⟨⟨u, m⟩, hlookup, rfl⟩ := Option.map_eq_some_iff.1 hedge
  obtain ⟨chs, way, hfollow⟩ := hchild { p with trail := p.trail ++ [separator] }
  refine ⟨.plain :: chs, way, ?_⟩
  rw [follow?, advance?]
  dsimp only
  rw [hseparator, Option.bind_some, hlookup]
  exact hfollow

/-- The entry of a path is behind the edge of any of its tokens. -/
theorem exists_of_valueAt?_append {cmp : Comparer} {path rest : List Token} {t : Token} {entry : α}
    (h : n.valueAt? cmp (path ++ t :: rest) = some entry) :
    ∃ m child, n.find? cmp path = some m ∧ m.step? cmp t = some child ∧
      child.valueAt? cmp rest = some entry := by
  rw [valueAt?, find?_append] at h
  obtain ⟨e, he, hvalue⟩ := Option.bind_eq_some_iff.1 h
  obtain ⟨m, hm, hrest⟩ := Option.bind_eq_some_iff.1 he
  obtain ⟨child, hedge, hrest⟩ := Option.bind_eq_some_iff.1 hrest
  exact ⟨m, child, hm, hedge, Option.bind_eq_some_iff.2 ⟨e, hrest, hvalue⟩⟩

/-- What an edge leads to, at the end of the path before it and in front of the path behind it. -/
theorem valueAt?_append_cons {cmp : Comparer} {path rest : List Token} {t : Token}
    {m child : Node α} (hm : n.find? cmp path = some m) (hedge : m.step? cmp t = some child) :
    n.valueAt? cmp (path ++ t :: rest) = child.valueAt? cmp rest := by
  rw [valueAt?, find?_append, hm, Option.bind_some, find?, hedge, Option.bind_some, valueAt?]

end Node

/-! ## Whole matches -/

namespace Graph

variable {cmp : Comparer} {options : SearchOptions} {input : Input} {g : Graph α}

/-- A match of a graph is a cut of the input along the path of an entry, and its progress is that of
the cut. -/
theorem exists_cut_progress_of_match? (hg : g.BuiltUnder cmp) {chs : List Choice} {way : Way α}
    (h : g.match? options input chs = some way) :
    ∃ cut : Cut, g.get? cut.path = some way.entry ∧ cut.Fits cmp options.sets input ∧
      way.progress = cut.progress options.defaultWildcard := by
  obtain rfl := hg.comparer_eq
  obtain ⟨message, m₁, hmessage, hfind₁, hleaves₁⟩ := Node.exists_cover_of_follow? hg.wellKeyed h
  -- the segments for the message and for what was said last have separators behind them
  rcases hleaves₁ with ⟨hlast, -, -⟩ | @⟨_, t, child₁, chs₁, hthat, ht, hedge₁, hkeyed₁, hfollow₁⟩
  · cases hlast
  obtain ⟨that, m₂, hthatCover, hfind₂, hleaves₂⟩ := Node.exists_cover_of_follow? hkeyed₁ hfollow₁
  rcases hleaves₂ with ⟨hlast, -, -⟩ | @⟨_, u, child₂, chs₂, htopic, hu, hedge₂, hkeyed₂, hfollow₂⟩
  · cases hlast
  obtain ⟨topic, m₃, htopicCover, hfind₃, hleaves₃⟩ := Node.exists_cover_of_follow? hkeyed₂ hfollow₂
  rcases hleaves₃ with ⟨-, hvalue, hprogress⟩ | ⟨hnone, -, -, -, -⟩
  · obtain rfl := Option.some.inj hthat
    obtain rfl := Option.some.inj htopic
    refine ⟨⟨message, t, that, u, topic⟩, ?_, ⟨hmessage, ht, hthatCover, hu, htopicCover⟩, ?_⟩
    · calc
        _ = g.root.valueAt? g.comparer
            (message.tokens ++ t :: (that.tokens ++ u :: topic.tokens)) := by
          rw [get?_eq_valueAt?, Cut.path_eq]
        _ = child₁.valueAt? g.comparer (that.tokens ++ u :: topic.tokens) :=
          Node.valueAt?_append_cons hfind₁ hedge₁
        _ = child₂.valueAt? g.comparer topic.tokens := Node.valueAt?_append_cons hfind₂ hedge₂
        _ = m₃.value? := congrArg (fun found => found.bind Node.value?) hfind₃
        _ = some way.entry := hvalue
    · rw [hprogress, Cut.progress, Cut.trail]
      simp [Progress.past, Captures.pushAll, Cut.captures, SearchOptions.query, Cursor.startOf,
        Segment.advance]
  · cases hnone

/-- A match of a graph is a cut of the input along the path of an entry, and keeps the texts that
the cut keeps. -/
theorem exists_cut_of_match? (hg : g.BuiltUnder cmp) {chs : List Choice} {way : Way α}
    (h : g.match? options input chs = some way) :
    ∃ cut : Cut, g.get? cut.path = some way.entry ∧ cut.Fits cmp options.sets input ∧
      way.progress.captures = cut.captures options.defaultWildcard := by
  obtain ⟨cut, hget, hfits, hprogress⟩ := exists_cut_progress_of_match? hg h
  exact ⟨cut, hget, hfits, congrArg Progress.captures hprogress⟩

/-- A cut of an input along the path of an entry is a reason for a match. -/
theorem exists_match?_of_fits (hg : g.comparer = cmp) (hsets : options.sets.BuiltUnder cmp)
    (hwords : ∀ s, ∀ w ∈ input.segment s, IsWord w) {cut : Cut} {entry : α}
    (hget : g.get? cut.path = some entry) (hfits : cut.Fits cmp options.sets input) :
    ∃ chs way, g.match? options input chs = some way := by
  subst hg
  rw [get?_eq_valueAt?, Cut.path_eq] at hget
  obtain ⟨m₁, child₁, hfind₁, hedge₁, hget⟩ := Node.exists_of_valueAt?_append hget
  obtain ⟨m₂, child₂, hfind₂, hedge₂, hget⟩ := Node.exists_of_valueAt?_append hget
  obtain ⟨m₃, hfind₃, hvalue⟩ := Option.bind_eq_some_iff.1 hget
  -- from the end of the input to its start
  let q := options.query g.comparer input
  have hend : ∀ p, ∃ chs way,
      m₃.follow? q { segment := .topic, ahead := [] } p chs = some way := by
    intro p
    refine ⟨[], { entry, progress := p }, ?_⟩
    rw [Node.follow?, hvalue]
    rfl
  have htopic := Node.exists_follow?_of_cover (q := q) hsets (hwords .topic) hfits.topic hfind₃ hend
  have hthat := Node.exists_follow?_of_cover (q := q) hsets (hwords .that) hfits.that hfind₂
    (Node.exists_follow?_of_separator (s := .that) rfl hfits.topicToken hedge₂ htopic)
  exact Node.exists_follow?_of_cover (q := q) hsets (hwords .message) hfits.message hfind₁
    (Node.exists_follow?_of_separator (s := .message) rfl hfits.thatToken hedge₁ hthat) {}

end Graph

theorem Input.isWord_of_mem_segment_ofTexts {message that topic w : String} {s : Segment}
    (h : w ∈ (Input.ofTexts message that topic).segment s) : IsWord w := by
  cases s with
  | message => exact isWord_of_mem_words h
  | that => exact isWord_of_mem_words h
  | topic => exact isWord_of_mem_words h

/-- **A search is sound and complete, with exact captures.** Among graphs that were built it finds
something exactly if the input can be cut along the path of an entry of one of them, and what it
finds is the entry of such a path with the texts that such a cut keeps. -/
theorem search_eq_ok_iff_exists_cut {cmp : Comparer} {options : SearchOptions}
    {graphs : List (Graph α)} (message that topic : String)
    (hgraphs : ∀ g ∈ graphs, g.BuiltUnder cmp) (hsets : options.sets.BuiltUnder cmp)
    (hdepth : options.depth ≤ options.recursionLimit) (htime : options.expired = false) :
    ∃ found?, (search options graphs (.ofTexts message that topic)).result = .ok found? ∧
      (found?.isSome ↔
        ∃ g ∈ graphs, ∃ path entry, g.get? path = some entry ∧
          ∃ cut : Cut, cut.path = path ∧
            cut.Fits cmp options.sets (.ofTexts message that topic)) ∧
      ∀ found, found? = some found →
        ∃ (g : Graph α) (cut : Cut), graphs[found.root]? = some g ∧
          g.get? cut.path = some found.entry ∧
          cut.Fits cmp options.sets (.ofTexts message that topic) ∧
          found.captures = cut.captures options.defaultWildcard := by
  let input := Input.ofTexts message that topic
  obtain ⟨found?, hresult⟩ := exists_result_search graphs input hdepth htime
  have hfrom := result_search graphs input hdepth
  rw [hresult] at hfrom
  have hsound : ∀ found, found? = some found →
      ∃ (g : Graph α) (cut : Cut), graphs[found.root]? = some g ∧
        g.get? cut.path = some found.entry ∧ cut.Fits cmp options.sets input ∧
        found.captures = cut.captures options.defaultWildcard := by
    rintro found rfl
    obtain ⟨before, g, after, way, rfl, -, hg, rfl⟩ :=
      (result_searchFrom_eq_some_iff htime).1 hfrom.symm
    obtain ⟨chs, hmatch, -⟩ := Graph.firstMatch?_eq_some_iff.1 hg
    obtain ⟨cut, hget, hfits, hcaptures⟩ :=
      Graph.exists_cut_of_match? (hgraphs g (by simp)) hmatch
    refine ⟨g, cut, ?_, hget, hfits, hcaptures⟩
    rw [Way.found, Nat.zero_add, List.getElem?_append_right (Nat.le_refl _), Nat.sub_self]
    rfl
  refine ⟨found?, hresult, ⟨?_, ?_⟩, hsound⟩
  · intro hsome
    obtain ⟨found, hfound⟩ := Option.isSome_iff_exists.1 hsome
    obtain ⟨g, cut, hroot, hget, hfits, -⟩ := hsound found hfound
    exact ⟨g, List.mem_of_getElem? hroot, cut.path, found.entry, hget, cut, rfl, hfits⟩
  · rintro ⟨g, hg, path, entry, hget, cut, rfl, hfits⟩
    cases found? with
    | some found => rfl
    | none =>
      -- nothing was found, so that there is no match in the graph either
      have hnothing := (result_searchFrom_eq_none_iff htime).1 hfrom.symm g hg
      obtain ⟨chs, way, hmatch⟩ := Graph.exists_match?_of_fits (hgraphs g hg).comparer_eq hsets
        (fun s w hw => Input.isWord_of_mem_segment_ofTexts hw) hget hfits
      rw [Graph.firstMatch?_eq_none_iff.1 hnothing chs] at hmatch
      simp at hmatch

/-- A set takes a phrase of two words, and a wildcard takes nothing of an empty topic. -/
theorem search_eq_ok_iff_exists_cut_john :
    let sets := (SetTable.empty .ignoreCase).insert "name"
      (.ofPhrases .ignoreCase ["John", "John Paul"])
    let options := { SearchOptions.unhindered .ignoreCase with sets }
    let path : List Token :=
      [.priority "ME", .set "NAME", .word "<that>", .wildcard .oneOrMore, .word "<topic>",
        .wildcard .zeroOrMore]
    let graph := ((Graph.empty .ignoreCase).insert path "Hi!").1
    ∃ found, (search options [graph] (.ofTexts "me john paul" "so" "")).result =
      .ok (some found) := by
  intro sets options path graph
  have hgraphs : ∀ g ∈ [graph], g.BuiltUnder .ignoreCase := by
    intro g hg
    rw [List.mem_singleton.1 hg]
    exact .insert path "Hi!" .empty
  have hsets : options.sets.BuiltUnder .ignoreCase := .insert "name" .empty (.ofPhrases _)
  obtain ⟨found?, hresult, hiff, -⟩ :=
    search_eq_ok_iff_exists_cut "me john paul" "so" "" hgraphs hsets (by decide) rfl
  let cut : Cut :=
    { message := [(.priority "ME", ["me"]), (.set "NAME", ["john", "paul"])]
      thatToken := .word "<that>"
      that := [(.wildcard .oneOrMore, ["so"])]
      topicToken := .word "<topic>"
      topic := [(.wildcard .zeroOrMore, [])] }
  have hfits : cut.Fits .ignoreCase options.sets (.ofTexts "me john paul" "so" "") := by
    refine ⟨?_, ⟨rfl, by decide +kernel⟩, ?_, ⟨rfl, by decide +kernel⟩, ?_⟩
    · refine .cons (.preferred rfl rfl (by decide +kernel)) (.cons ?_ (Spans.cover_nil ..))
      have hget : options.sets.get? "NAME" =
          some (.ofPhrases .ignoreCase ["John", "John Paul"]) := by decide +kernel
      exact .phrase hget (by decide) (by decide +kernel)
    · exact .cons (.wildcard rfl rfl (by decide)) (Spans.cover_nil ..)
    · exact .cons (.wildcard rfl rfl (by decide)) (Spans.cover_nil ..)
  have hsome : found?.isSome := hiff.2
    ⟨graph, List.mem_singleton_self .., cut.path, "Hi!", by decide +kernel, cut, rfl, hfits⟩
  obtain ⟨found, rfl⟩ := Option.isSome_iff_exists.1 hsome
  exact ⟨found, hresult⟩

end Parley
