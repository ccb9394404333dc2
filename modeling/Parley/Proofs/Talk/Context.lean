import Parley.Proofs.Search.Context
import Parley.Proofs.Talk.Evolution

/-!
# The contexts that talking leads to

A sentence is matched together with what the bot said last and with the topic. What the bot said
last is the default of the configuration until a reply has a sentence that is not empty when it is
ready for matching; such a sentence has words. The topic is a predicate, which may hold any text,
also one without words.

A category that leaves the context open is therefore found in the same way at all times at which
both parts of the context have words, and at no other time.

Main results:

* `Bot.Reachable.words_that_ne_nil` — what was said last always has words if the default has;
* `search_eq_of_reachable` — when categories without a context are found, and that they are found in
  the same way.
-/

namespace Parley

open Text

/-! ## Texts ready for matching -/

namespace Text

/-- A text that does not end with a blank has words, unless it is empty. -/
theorem words_ne_nil_of_getLast? {s : String} {c : Char} (h : s.toList.getLast? = some c)
    (hc : isBlank c = false) : words s ≠ [] := by
  intro hnil
  -- a text without words has blanks only
  rw [words, List.map_eq_nil_iff, breakWords_eq_nil_iff] at hnil
  rw [hnil c (List.mem_of_getLast? h)] at hc
  exact absurd hc (by decide)

end Text

/-- A sentence that is not empty when it is ready for matching has words then. -/
theorem words_normalize_ne_nil {config : Config} {text : String}
    (h : (config.normalize text).isEmpty = false) : words (config.normalize text) ≠ [] := by
  cases hlast : (config.normalize text).toList.getLast? with
  | none =>
    -- the text would be empty
    rw [List.getLast?_eq_none_iff, String.toList_eq_nil_iff] at hlast
    rw [hlast] at h
    exact absurd h (by decide)
  | some c =>
    -- marks and blanks are dropped from the end, so that the last character is no blank
    have hkept := hlast
    rw [Config.normalize, Parley.normalize, String.toList_ofList] at hkept
    have hc := getLast?_dropEndWhile hkept
    rw [Bool.or_eq_false_iff] at hc
    exact words_ne_nil_of_getLast? hlast hc.2

theorem User.words_ne_nil_of_lastSentence? {config : Config} {text s : String}
    (h : User.lastSentence? config text = some s) : words s ≠ [] := by
  have hsome := List.find?_some h
  obtain ⟨sentence, -, rfl⟩ := List.mem_map.1 (List.mem_of_find?_eq_some h)
  exact words_normalize_ne_nil (by simpa using hsome)

/-! ## States that can be reached -/

namespace Bot

/-- The worlds in which a user can be: from a new user on, by requests and by assignments to
predicates. What happens apart from the user may happen at any time. -/
inductive Reachable (bot : Bot) : World → Prop where
  | new {w : World} (id : String) (user : w.user = .new bot.config id) : Reachable bot w
  | chat {w : World} (text : String) : Reachable bot w → Reachable bot ((bot.chat text).run w).2
  | setPredicate {w : World} (name value : String) : Reachable bot w →
      Reachable bot { w with user := w.user.setPredicate name value }
  | elsewhere {w w' : World} (user : w'.user = w.user) : Reachable bot w → Reachable bot w'

/-- What was said last has words at all times, if the default has words. -/
theorem Reachable.words_that_ne_nil {bot : Bot} {w : World} (h : bot.Reachable w)
    (hdefault : words bot.config.defaultHistory ≠ []) : words w.user.that ≠ [] := by
  -- induction on how the world was reached; only the reply to a request changes what was said
  induction h with
  | new id user =>
    rw [user]
    exact hdefault
  | @chat w text _ ih =>
    obtain ⟨w', hevolves, huser⟩ := bot.user_run_chat text w
    rw [huser]
    cases hlast : User.lastSentence? bot.config ((bot.chat text).run w).1.text with
    | none =>
      -- a reply without such a sentence leaves what was said before
      rw [User.addReply, hlast, Option.getD_none, hevolves.that_eq]
      exact ih
    | some s =>
      rw [User.addReply, hlast, Option.getD_some]
      exact User.words_ne_nil_of_lastSentence? hlast
  | setPredicate name value _ ih => exact ih
  | elsewhere user _ ih =>
    rw [user]
    exact ih

/-- What a message is matched as in a world. -/
def inputAt (bot : Bot) (message : String) (w : World) : Input :=
  ((bot.contextOf message).run w).1

theorem inputAt_eq (bot : Bot) (message : String) (w : World) :
    bot.inputAt message w =
      .ofTexts message w.user.that (bot.config.normalize (w.user.topic bot.config)) :=
  congrArg (Input.ofTexts message w.user.that) (bot.fst_run_normalize _ w)

end Bot

/-! ## When categories without a context are found -/

/-- **Categories without a context are found in the same way whenever the context has words, and not
at all when it has none in one part.** That what was said last has words is certain if the default
has; the topic has words when its predicate has some that are left when it is ready for matching. -/
theorem search_eq_of_reachable {bot : Bot} {cmp : Comparer} {graphs : List (Graph Template)}
    (hgraphs : ∀ g ∈ graphs, g.ContextFree bot.config cmp) (options : SearchOptions)
    (message : String) :
    (words bot.config.defaultHistory ≠ [] → ∀ w, bot.Reachable w → words w.user.that ≠ []) ∧
      (∀ w₁ w₂, bot.Reachable w₁ → bot.Reachable w₂ → (bot.inputAt message w₁).HasContext →
        (bot.inputAt message w₂).HasContext →
          (search options graphs (bot.inputAt message w₁)).answer =
            (search options graphs (bot.inputAt message w₂)).answer) ∧
      ∀ w, bot.Reachable w → ¬ (bot.inputAt message w).HasContext →
        ∀ found, (search options graphs (bot.inputAt message w)).result ≠ .ok (some found) := by
  refine ⟨?_, ?_, ?_⟩
  · intro hdefault w hw
    exact hw.words_that_ne_nil hdefault
  · intro w₁ w₂ _ _ hfirst hsecond
    refine answer_search_eq hgraphs ?_ hfirst hsecond
    rw [Bot.inputAt_eq, Bot.inputAt_eq]
    rfl
  · intro w _ hcontext found
    exact search_ne_ok_some hgraphs hcontext found

namespace Samples

/-- A bot with the settings that are there from the start. -/
def bot : Bot := .new {}

/-- A category for a greeting, without a context. -/
def greeting : Graph Template :=
  ((Graph.empty .ignoreCase).insert (compilePath bot.config [.word "HELLO"] none none none)
    (Template.ofText "Hi!")).1

/-- A world with a new user who has given the topic a value. -/
def worldAbout (topic : String) : World :=
  { knowledge := bot.initialKnowledge, reported := false
    user := (User.new bot.config "user").setPredicate "topic" topic
    clock := 0, log := [] }

theorem reachable_worldAbout (topic : String) : bot.Reachable (worldAbout topic) :=
  .setPredicate (w := { worldAbout topic with user := .new bot.config "user" }) "topic" topic
    (.new "user" rfl)

theorem contextFree_greeting : ∀ g ∈ [greeting], g.ContextFree bot.config .ignoreCase := by
  intro g hg
  rw [List.mem_singleton.1 hg]
  exact .insert [.word "HELLO"] _ .empty

end Samples

/-- The greeting is answered in the same way under two topics, and not without a topic. -/
theorem search_eq_of_reachable_greeting :
    words (Samples.worldAbout "tea").user.that ≠ [] ∧
      (search (.unhindered .ignoreCase) [Samples.greeting]
          (Samples.bot.inputAt "hello" (Samples.worldAbout "tea"))).answer =
        (search (.unhindered .ignoreCase) [Samples.greeting]
          (Samples.bot.inputAt "hello" (Samples.worldAbout "green tea."))).answer ∧
      ∀ found, (search (.unhindered .ignoreCase) [Samples.greeting]
        (Samples.bot.inputAt "hello" (Samples.worldAbout "..."))).result ≠ .ok (some found) := by
  obtain ⟨hthat, hsame, hnone⟩ := search_eq_of_reachable Samples.contextFree_greeting
    (.unhindered .ignoreCase) "hello"
  refine ⟨?_, ?_, ?_⟩
  · exact hthat (by decide +kernel) _ (Samples.reachable_worldAbout "tea")
  · refine hsame _ _ (Samples.reachable_worldAbout "tea")
      (Samples.reachable_worldAbout "green tea.") ?_ ?_
    · rw [Bot.inputAt_eq]
      exact ⟨by decide +kernel, by decide +kernel⟩
    · rw [Bot.inputAt_eq]
      exact ⟨by decide +kernel, by decide +kernel⟩
  · refine hnone _ (Samples.reachable_worldAbout "...") ?_
    -- of a topic of marks only, nothing is left when it is ready for matching
    rw [Bot.inputAt_eq]
    intro hcontext
    exact hcontext.2 (by decide +kernel)

/-- The greeting is not found in every context: not after the topic was given a text without words,
although its category says nothing about the topic. -/
theorem greeting_not_found_without_topic :
    (∀ g ∈ [Samples.greeting], g.ContextFree Samples.bot.config .ignoreCase) ∧
      Samples.bot.Reachable (Samples.worldAbout "tea") ∧
      Samples.bot.Reachable (Samples.worldAbout "") ∧
      (∃ found,
        (search (.unhindered .ignoreCase) [Samples.greeting]
          (Samples.bot.inputAt "hello" (Samples.worldAbout "tea"))).result = .ok (some found)) ∧
      (search (.unhindered .ignoreCase) [Samples.greeting]
        (Samples.bot.inputAt "hello" (Samples.worldAbout ""))).result = .ok none := by
  refine ⟨Samples.contextFree_greeting, Samples.reachable_worldAbout _,
    Samples.reachable_worldAbout _, ?_, ?_⟩
  · obtain ⟨found?, hresult⟩ := @exists_result_search _ (.unhindered .ignoreCase)
      [Samples.greeting] (Samples.bot.inputAt "hello" (Samples.worldAbout "tea")) (by decide) rfl
    cases found? with
    | some found => exact ⟨found, hresult⟩
    | none =>
      -- the category has a match in this context
      rw [result_search _ _ (by decide), result_searchFrom_eq_none_iff rfl] at hresult
      have hnone := Graph.firstMatch?_eq_none_iff.1 (hresult Samples.greeting (by simp))
        [.plain, .plain, .wildcard .oneOrMore 1, .plain, .wildcard .oneOrMore 1]
      rw [Bot.inputAt_eq] at hnone
      exact absurd (congrArg Option.isSome hnone) (by decide +kernel)
  · obtain ⟨found?, hresult⟩ := @exists_result_search _ (.unhindered .ignoreCase)
      [Samples.greeting] (Samples.bot.inputAt "hello" (Samples.worldAbout "")) (by decide) rfl
    cases found? with
    | none => exact hresult
    | some found =>
      refine absurd hresult (search_ne_ok_some Samples.contextFree_greeting ?_ found)
      rw [Bot.inputAt_eq]
      exact fun hcontext => hcontext.2 (by decide +kernel)

end Parley
