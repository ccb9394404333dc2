import Parley.Category
import Parley.Proofs.Search.Matching

/-!
# What a preferred word takes

Preferred words, wildcards, separators and plain words share one space of keys: a preferred word has
the key of its text, which is the word behind a dollar sign. A search looks a word of the input up
twice, once behind a dollar sign and once as it is, and no other look-up can reach the key of a
preferred word. By the first of them a preferred word takes its own word. By the second it takes its
own text, which a user can type: words spelled like wildcards and separators are kept from that
look-up, words with a dollar sign in front are not.

Main results:

* `Token.Takes.of_priority` — a preferred word takes its word, or its word behind a dollar sign;
* `search_aligns_preferred` — so it is in everything that a search finds, along the path it shows.
-/

namespace Parley

open Text

namespace Token

variable {cmp : Comparer} {sets : SetTable} {word : String} {ws : List String}

/-- The text of a preferred word is no symbol. -/
theorem ofSymbol?_text_priority (word : String) :
    Wildcard.ofSymbol? (priority word).text = none :=
  Comparer.ofSymbol?_eq_none_of_equals_preferred (Comparer.equals_self .exact ("$" ++ word))

/-- A preferred word takes one word: its own, or its own behind a dollar sign. -/
theorem Takes.of_priority (h : (priority word).Takes cmp sets ws) :
    ∃ w, ws = [w] ∧
      (cmp.equals w word = true ∨ ∃ v, w = "$" ++ v ∧ cmp.equals v word = true) := by
  -- one case for each look-up of a search; the text decides which of them reach the token
  cases h with
  | wildcard plain symbol length =>
    rw [ofSymbol?_text_priority] at symbol
    cases symbol
  | @preferred t w plain symbol equals =>
    rw [text, Comparer.equals_dollar] at equals
    exact ⟨w, rfl, Or.inl equals⟩
  | @word t w plain symbol equals spelling =>
    exact ⟨w, rfl, Or.inr (Comparer.exists_of_equals_dollar equals)⟩

/-- A preferred word is no separator, because a dollar sign is in front of its key. -/
theorem not_isSeparator_priority {separator : String}
    (hseparator : separator = thatSeparator ∨ separator = topicSeparator) :
    ¬ (priority word).IsSeparator cmp separator := by
  rintro ⟨-, h⟩
  rw [cmp.equals_comm] at h
  obtain ⟨v, hv, -⟩ := Comparer.exists_of_equals_dollar h
  have hhead := congrArg (fun s => s.toList.head?) hv
  rcases hseparator with rfl | rfl
  · simp [thatSeparator] at hhead
  · simp [topicSeparator] at hhead

end Token

/-- The preferred words of a cut take their words as they are, or behind a dollar sign. -/
theorem Cut.Fits.preferred {cmp : Comparer} {sets : SetTable} {input : Input} {cut : Cut}
    (h : cut.Fits cmp sets input) {word : String} {ws : List String}
    (hspan : (Token.priority word, ws) ∈ cut.spans) :
    ∃ w, ws = [w] ∧
      (cmp.equals w word = true ∨ ∃ v, w = "$" ++ v ∧ cmp.equals v word = true) := by
  rw [Cut.spans, List.mem_append, List.mem_cons, List.mem_append, List.mem_cons] at hspan
  rcases hspan with hmem | heq | hmem | heq | hmem
  · exact (h.message.takes _ hmem).of_priority
  · rw [Prod.mk.injEq] at heq
    exact absurd (heq.1 ▸ h.thatToken) (Token.not_isSeparator_priority (Or.inl rfl))
  · exact (h.that.takes _ hmem).of_priority
  · rw [Prod.mk.injEq] at heq
    exact absurd (heq.1 ▸ h.topicToken) (Token.not_isSeparator_priority (Or.inr rfl))
  · exact (h.topic.takes _ hmem).of_priority

/-- **A preferred word stands for its word, with or without a dollar sign.** What a search finds is
a cut of the input along the path of the entry. The path that it shows is that of the cut, and the
texts taken are those of the cut. In it, every preferred word takes one word of the input, which is
the same as the preferred word, or the same behind a dollar sign. -/
theorem search_aligns_preferred {α : Type} {options : SearchOptions} {graphs : List (Graph α)}
    {input : Input} {found : Found α} (hgraphs : ∀ g ∈ graphs, g.BuiltUnder g.comparer)
    (h : (search options graphs input).result = .ok (some found)) :
    ∃ (g : Graph α) (cut : Cut), graphs[found.root]? = some g ∧
      g.get? cut.path = some found.entry ∧ cut.Fits g.comparer options.sets input ∧
      found.path = unwords cut.trail ∧ found.captures = cut.captures options.defaultWildcard ∧
      ∀ word ws, (Token.priority word, ws) ∈ cut.spans →
        ∃ w, ws = [w] ∧
          (g.comparer.equals w word = true ∨
            ∃ v, w = "$" ++ v ∧ g.comparer.equals v word = true) := by
  obtain ⟨g, way, hroot, hg, hfound⟩ := exists_firstMatch?_of_search h
  obtain ⟨chs, hmatch, -⟩ := Graph.firstMatch?_eq_some_iff.1 hg
  have hbuilt := hgraphs g (List.mem_of_getElem? hroot)
  obtain ⟨cut, hget, hfits, hprogress⟩ := Graph.exists_cut_progress_of_match? hbuilt hmatch
  refine ⟨g, cut, hroot, ?_, hfits, ?_, ?_, fun word ws hspan => hfits.preferred hspan⟩
  · rw [hget, hfound, Way.found]
  · rw [hfound, Way.found, hprogress, Cut.progress]
  · rw [hfound, Way.found, hprogress, Cut.progress]

/-! ## A name in a pattern -/

namespace Samples

/-- The path of a question for the bot by its name, which is a property of the bot. -/
def namePath : List Token :=
  compilePath { botProperties := [("name", "Angelina")] }
    [.word "WHO", .word "IS", .property "name"] none none none

/-- A graph with an answer to that question. -/
def nameGraph : Graph String := ((Graph.empty .ignoreCase).insert namePath "Me.").1

/-- The input for a message at the start of a talk. -/
def firstInput (message : String) : Input := .ofTexts message "nil" "unknown"

/-- A search finds the answer if the path that it shows is the one of the question. -/
theorem exists_found_nameGraph (message : String)
    (h : (search (.unhindered .ignoreCase) [nameGraph] (firstInput message)).result.toOption.map
      (fun found? => found?.map Found.path) = some (some "WHO IS $Angelina <that> * <topic> *")) :
    ∃ found, (search (.unhindered .ignoreCase) [nameGraph] (firstInput message)).result =
      .ok (some found) ∧ found.path = "WHO IS $Angelina <that> * <topic> *" := by
  obtain ⟨found?, hresult⟩ := @exists_result_search _ (.unhindered .ignoreCase)
    [nameGraph] (firstInput message) (by decide) rfl
  rw [hresult] at h
  obtain ⟨found, rfl, hpath⟩ := Option.map_eq_some_iff.1 (Option.some.inj h)
  exact ⟨found, hresult, hpath⟩

end Samples

/-- The name in a pattern takes the name in a message. -/
theorem search_aligns_preferred_name :
    ∃ (found : Found String) (cut : Cut), (search (.unhindered .ignoreCase) [Samples.nameGraph]
        (Samples.firstInput "who is angelina")).result = .ok (some found) ∧
      found.path = unwords cut.trail ∧
      ∀ word ws, (Token.priority word, ws) ∈ cut.spans →
        ∃ w, ws = [w] ∧
          (Comparer.ignoreCase.equals w word = true ∨
            ∃ v, w = "$" ++ v ∧ Comparer.ignoreCase.equals v word = true) := by
  obtain ⟨found, hresult, -⟩ :=
    Samples.exists_found_nameGraph "who is angelina" (by decide +kernel)
  have hgraphs : ∀ g ∈ [Samples.nameGraph], g.BuiltUnder g.comparer := by
    intro g hg
    rw [List.mem_singleton.1 hg]
    exact .insert Samples.namePath "Me." .empty
  obtain ⟨g, cut, hroot, -, -, hpath, -, haligned⟩ := search_aligns_preferred hgraphs hresult
  obtain rfl : g = Samples.nameGraph := List.mem_singleton.1 (List.mem_of_getElem? hroot)
  exact ⟨found, cut, hresult, hpath, haligned⟩

/-- **A name behind a dollar sign is taken for the name**, although no word of the input is the same
as the name. -/
theorem name_found_behind_dollar :
    Token.priority "Angelina" ∈ Samples.namePath ∧
      (∃ found, (search (.unhindered .ignoreCase) [Samples.nameGraph]
          (Samples.firstInput "who is $angelina")).result = .ok (some found) ∧
        found.path = "WHO IS $Angelina <that> * <topic> *") ∧
      ∀ w ∈ (Samples.firstInput "who is $angelina").words,
        Comparer.ignoreCase.equals w "Angelina" = false :=
  ⟨by decide +kernel, Samples.exists_found_nameGraph _ (by decide +kernel), by decide +kernel⟩

end Parley
