import Parley.Proofs.Search.Listing
import Parley.Proofs.Talk.Lasting
import Parley.Proofs.Talk.Searches

/-!
# What the details of a reply say

The details of a sentence are filled in on the way: what was searched for, what was found, and how
it ended. The way has several ends, and sub-requests go the same way inside of it, with details of
their own. What is left is about one search only, the one that was made for the sentence before
anything was evaluated.

The path of the details is one of the paths of the graph, up to the spelling of separators. A search
shows them as the library writes them; the graph keeps them as they were added first. They are the
same if all that was ever learned are categories that were read from markup. This lasts while the
bot talks, so it holds for every bot that was only taught such categories. It does not hold of a bot
that was taught a pattern with another spelling of a separator among its words.

Main results:

* `World.lasts_graphs` — a property of graphs that every category keeps lasts while the bot talks;
* `Bot.tells_answerTop` — what the details of a sentence say about its search;
* `Bot.chat_details_tell` — the same for all sentences of a request;
* `Bot.respelled_path_not_listed` — a path that is told and is none of the graph.
-/

namespace Parley

open Text

/-! ## Worlds in which only categories are stored -/

/-- Whether both graphs of a world have a property. -/
structure World.Graphs (P : Graph Template → Prop) (w : World) : Prop where
  knowledge : P w.knowledge.graph
  own : P w.user.graph

/-- Whether the graphs of a world were built by adding paths, whatever these are. -/
abbrev World.Built (w : World) : Prop := w.Graphs fun g => g.BuiltUnder g.comparer

/-- Whether the graphs of a world were built from the paths of categories. -/
abbrev World.Compiled (w : World) : Prop := w.Graphs Graph.Compiled

theorem Category.FromMarkup.isCompiled {c : Category} (h : c.FromMarkup) (config : Config)
    (topicName? : Option String) : IsCompiled (c.path config topicName?) :=
  ⟨config, c.pattern, c.that?, c.topic?, topicName?, h.pattern, h.that, h.topic, rfl⟩

section Graphs

variable {P : Graph Template → Prop}

theorem Knowledge.graph_add {k : Knowledge} {path : List Token} (t : Template) (h : P k.graph)
    (hinsert : P (k.graph.insert path t).1) : P (k.add path t).1.graph := by
  cases hget : k.graph.get? path with
  | none =>
    rw [fst_add_of_get?_eq_none hget]
    exact hinsert
  | some existing =>
    rw [add_of_get?_eq_some hget]
    exact h

/-- **A property of graphs lasts while the bot talks,** if every category that is added to a graph
keeps it. -/
theorem World.lasts_graphs (bot : Bot)
    (hinsert : ∀ g path t, IsCompiled path → P g → P (g.insert path t).1) :
    World.Lasts bot (World.Graphs P) where
  reported := by
    rintro v w ⟨log, reported, rfl⟩ h
    exact ⟨h.knowledge, h.own⟩
  setPredicate _ _ _ h := ⟨h.knowledge, h.own⟩
  wait _ _ h := ⟨h.knowledge, h.own⟩
  taught _ c hc _ h :=
    ⟨Knowledge.graph_add c.template h.knowledge (hinsert _ _ _ (hc.isCompiled ..) h.knowledge),
      h.own⟩
  taughtOwn c hc _ h := ⟨h.knowledge, hinsert _ _ c.template (hc.isCompiled ..) h.own⟩
  recorded _ _ _ _ h := ⟨h.knowledge, h.own⟩

theorem World.lasts_built (bot : Bot) : World.Lasts bot World.Built :=
  World.lasts_graphs bot fun _ path t _ hg => hg.insert path t

/-- Only categories are stored, however long the bot talks. -/
theorem World.lasts_compiled (bot : Bot) : World.Lasts bot World.Compiled :=
  World.lasts_graphs bot fun _ _ t hpath hg => hg.insert t hpath

end Graphs

/-! ## One sentence -/

/-- The graph of an origin. -/
def World.graphOf (w : World) : Origin → Graph Template
  | .own => w.user.graph
  | .shared => w.knowledge.graph

theorem World.Graphs.graphOf {P : Graph Template → Prop} {w : World} (h : w.Graphs P)
    (origin : Origin) : P (w.graphOf origin) := by
  cases origin with
  | own => exact h.own
  | shared => exact h.knowledge

namespace Bot

/-- What is found for a sentence of a request, if anything is. -/
def found? (bot : Bot) (raw : String) (w : World) : Option (Found Template) :=
  (bot.searchAt 0 (w.clock + bot.config.timeout) (bot.config.normalize raw) w).result.toOption.join

/-- Whether the user's own graph has any match for a sentence of a request. -/
def MatchesOwn (bot : Bot) (raw : String) (w : World) : Prop :=
  ∃ chs way, w.user.graph.match?
    (bot.searchOptions 0 (w.clock + bot.config.timeout) w.clock)
    (bot.inputAt (bot.config.normalize raw) w) chs = some way

/-- What the details of the answer to a sentence say. The world is the one before the sentence, so
that nothing that happens in sub-requests matters to what was searched for and found. -/
structure Tells (bot : Bot) (raw : String) (w : World) (a : Answer) : Prop where
  normalizedPath : a.details.normalizedPath = (bot.inputAt (bot.config.normalize raw) w).render
  matchedPath : a.details.matchedPath? = (bot.found? raw w).map Found.path
  origin : a.details.origin? = (bot.found? raw w).map originOf
  together : a.details.matchedPath?.isSome = a.details.origin?.isSome
  noMatch : a.details.outcome = .noMatch →
    a.details.matchedPath? = none ∧ a.details.origin? = none
  matched : a.details.outcome = .matched ∨ a.details.outcome = .aborted .recursionLimit ∨
      a.details.outcome = .aborted .loopLimit →
    a.details.matchedPath?.isSome ∧ a.details.origin?.isSome
  /-- It is the template that was found that answers. -/
  answers : ∀ found, bot.found? raw w = some found → ∃ v, w.Reported v ∧
    a.result = ((ExceptT.run (bot.evaluating 0 (w.clock + bot.config.timeout)
      (bot.config.normalize raw) found)).run { world := v }).1
  /-- This template is listed in the graph that is named, and the path that is named is the one that
  it is listed under, up to the spelling of separators. -/
  listed : w.Built → ∀ found, bot.found? raw w = some found → ∃ shown listed,
    found.path = unwords shown ∧
      List.Forall₂ (LabelSpells (w.graphOf (originOf found)).comparer) shown listed ∧
      (listed.foldl Node.extendPath "", found.entry) ∈ (w.graphOf (originOf found)).listing
  /-- If only categories are stored, the separators are spelled alike. -/
  listedAsShown : w.Compiled → ∀ found, bot.found? raw w = some found →
    (found.path, found.entry) ∈ (w.graphOf (originOf found)).listing
  own : ∀ origin, a.details.origin? = some origin → (origin = .own ↔ bot.MatchesOwn raw w)

end Bot

/-- A search finds something in the first graph exactly if this graph has any match. -/
theorem root_eq_zero_iff_of_search {α : Type} {options : SearchOptions} {g : Graph α}
    {graphs : List (Graph α)} {input : Input} {found : Found α}
    (h : (search options (g :: graphs) input).result = .ok (some found)) :
    found.root = 0 ↔ ∃ chs way, g.match? options input chs = some way := by
  constructor
  · intro hzero
    obtain ⟨g', way, hroot, hg, -⟩ := exists_firstMatch?_of_search h
    rw [hzero] at hroot
    obtain rfl : g = g' := Option.some.inj hroot
    obtain ⟨chs, hmatch, -⟩ := Graph.firstMatch?_eq_some_iff.1 hg
    exact ⟨chs, way, hmatch⟩
  · rintro ⟨chs, way, hmatch⟩
    -- the search goes no further than the first graph
    have htime : options.expired = false := by
      rw [Bool.eq_false_iff]
      intro hexpired
      obtain ⟨cause, herror⟩ := search_eq_error_iff.2
        (Or.inr ⟨hexpired, List.cons_ne_nil g graphs⟩ : options.recursionLimit < options.depth ∨ _)
      rw [h] at herror
      cases herror
    rw [result_search _ _ (depth_le_of_search_eq_ok h), result_searchFrom_cons _ _ _ _ htime] at h
    cases hfirst : g.firstMatch? options input with
    | none =>
      rw [Graph.firstMatch?_eq_none_iff.1 hfirst chs] at hmatch
      cases hmatch
    | some first =>
      rw [hfirst] at h
      rw [← Option.some.inj (Except.ok.inj h)]
      rfl

namespace Bot

variable {bot : Bot} {w : World} {raw : String}

/-- What is found is the match of the graph that it is from. -/
theorem exists_firstMatch?_of_searchAt {depth deadline : Nat} {sentence : String}
    {found : Found Template}
    (h : (bot.searchAt depth deadline sentence w).result = .ok (some found)) :
    ∃ options input way, (w.graphOf (originOf found)).firstMatch? options input = some way ∧
      found.path = unwords way.progress.trail ∧ found.entry = way.entry := by
  obtain ⟨g, way, hroot, hg, hfound⟩ := exists_firstMatch?_of_search h
  have hgraph : g = w.graphOf (originOf found) := by
    rw [originOf]
    -- there are no roots but the user's graph and the one of all users
    generalize found.root = root at hroot
    cases root with
    | zero => exact (Option.some.inj hroot).symm
    | succ root =>
      cases root with
      | zero => exact (Option.some.inj hroot).symm
      | succ root => cases hroot
  rw [hgraph] at hg
  exact ⟨_, _, way, hg, congrArg Found.path hfound, congrArg Found.entry hfound⟩

/-- If nothing is found, a sentence is without a match or its time is up. -/
theorem tells_of_found?_eq_none {a : Answer} (hnone : bot.found? raw w = none)
    (hinput : a.input = bot.inputAt (bot.config.normalize raw) w) (hmatched : a.matched? = none)
    (houtcome : a.outcome = .noMatch ∨ a.outcome = .aborted .timeout) : bot.Tells raw w a := by
  have hpath : a.details.matchedPath? = none := congrArg (Option.map Prod.fst) hmatched
  have horigin : a.details.origin? = none := congrArg (Option.map Prod.snd) hmatched
  refine ⟨congrArg Input.render hinput, ?_, ?_, ?_, fun _ => ⟨hpath, horigin⟩, ?_, ?_, ?_, ?_, ?_⟩
  · rw [hpath, hnone, Option.map_none]
  · rw [horigin, hnone, Option.map_none]
  · rw [hpath, horigin]
    rfl
  -- an outcome that needs a template is neither of the two
  · intro h
    change a.outcome = _ ∨ a.outcome = _ ∨ a.outcome = _ at h
    rcases houtcome with houtcome | houtcome
    all_goals
      rw [houtcome] at h
      rcases h with h | h | h <;> cases h
  · intro found hfound
    rw [hnone] at hfound
    cases hfound
  · intro _ found hfound
    rw [hnone] at hfound
    cases hfound
  · intro _ found hfound
    rw [hnone] at hfound
    cases hfound
  · intro origin hsome
    rw [horigin] at hsome
    cases hsome

/-- If something is found, the sentence has the answer that its template gives. -/
theorem tells_of_searchAt {a : Answer} {found : Found Template}
    (hsearch : (bot.searchAt 0 (w.clock + bot.config.timeout) (bot.config.normalize raw) w).result =
      .ok (some found))
    (hinput : a.input = bot.inputAt (bot.config.normalize raw) w)
    (hmatched : a.matched? = some (found.path, originOf found)) {v : World} (hv : w.Reported v)
    (hresult : a.result = ((ExceptT.run (bot.evaluating 0 (w.clock + bot.config.timeout)
      (bot.config.normalize raw) found)).run { world := v }).1) : bot.Tells raw w a := by
  have hfound : bot.found? raw w = some found := by
    rw [found?, hsearch]
    rfl
  have hpath : a.details.matchedPath? = some found.path :=
    congrArg (Option.map Prod.fst) hmatched
  have horigin : a.details.origin? = some (originOf found) :=
    congrArg (Option.map Prod.snd) hmatched
  -- the way that the search has found, for what is told of its path
  obtain ⟨options, input, way, hway, hshown, hentry⟩ := exists_firstMatch?_of_searchAt hsearch
  refine ⟨congrArg Input.render hinput, ?_, ?_, ?_, ?_, fun _ => ?_, ?_, ?_, ?_, ?_⟩
  · rw [hpath, hfound, Option.map_some]
  · rw [horigin, hfound, Option.map_some]
  · rw [hpath, horigin]
    rfl
  · intro h
    change a.outcome = _ at h
    rw [Answer.outcome, hmatched] at h
    split at h <;> simp_all
  · rw [hpath, horigin]
    exact ⟨rfl, rfl⟩
  · intro other hother
    rw [hfound] at hother
    obtain rfl := Option.some.inj hother
    exact ⟨v, hv, hresult⟩
  · intro hw other hother
    rw [hfound] at hother
    obtain rfl := Option.some.inj hother
    obtain ⟨listed, hspells, hmem⟩ := (hw.graphOf _).exists_listed hway
    rw [hentry]
    exact ⟨_, listed, hshown, hspells, hmem⟩
  · intro hw other hother
    rw [hfound] at hother
    obtain rfl := Option.some.inj hother
    rw [hshown, hentry]
    exact (hw.graphOf _).mem_listing hway
  · intro origin hsome
    rw [horigin] at hsome
    obtain rfl := Option.some.inj hsome
    -- the graph of the user comes first
    rw [MatchesOwn, ← root_eq_zero_iff_of_search hsearch, originOf]
    by_cases hroot : found.root = 0 <;> simp [hroot]

/-- **The details of a sentence tell what was searched for and found for it,** and nothing else. -/
theorem tells_answerTop (bot : Bot) (raw : String) (w : World) :
    bot.Tells raw w ((bot.answerTop raw).run w).1 := by
  show bot.Tells raw w ((bot.answer 0 (w.clock + bot.config.timeout) raw).run w).1
  rw [run_answer]
  dsimp only
  cases hsearch : (bot.searchAt 0 (w.clock + bot.config.timeout) (bot.config.normalize raw)
      w).result with
  | error cause =>
    -- at the top, only the time can be up
    obtain ⟨rfl, -⟩ := timeout_of_searchAt (Nat.zero_le _) hsearch
    refine tells_of_found?_eq_none ?_ rfl rfl (Or.inr rfl)
    rw [found?, hsearch]
    rfl
  | ok match? =>
    cases match? with
    | none =>
      refine tells_of_found?_eq_none ?_ rfl rfl (Or.inl rfl)
      rw [found?, hsearch]
      rfl
    | some found =>
      refine tells_of_searchAt hsearch rfl rfl ?_ rfl
      exact (bot.reported_searched ..).trans (World.reported_report _ _)

end Bot

/-! ## All sentences of a request -/

/-- A property that lasts holds before every sentence of a request. -/
theorem Relay.lasts {bot : Bot} {I : World → Prop} (h : World.Lasts bot I) {w w' : World}
    {courses : List Course} (hrelay : Relay w courses w')
    (hanswered : ∀ c ∈ courses, (bot.answerTop c.raw).run c.before = (c.answer, c.after))
    (hw : I w) : ∀ c ∈ courses, I c.before := by
  refine hrelay.forall_before (fun c hc hbefore => ?_) hw
  have hanswer := Bot.lasts_answer h 0 (c.before.clock + bot.config.timeout) c.raw c.before hbefore
  change I ((bot.answerTop c.raw).run c.before).2 at hanswer
  rwa [hanswered c hc] at hanswer

namespace Bot

/-- **The details of a reply tell the truth,** up to the spelling of separators. There is one entry
for each sentence of the request, and it tells what was searched for and found in the world that the
sentences before left. Whatever happens in sub-requests, and however the sentence ends, nothing else
can get into it. The graphs of a world are built from the start, and remain so: the template that
answers is always a listed one. If only categories are stored before the request, then so before
each sentence, where the path that is told is a listed one, and after the request. -/
theorem chat_details_tell (bot : Bot) (text : String) (w : World) :
    let sentences := bot.config.splitSentences false text
    let courses := bot.courses sentences (requested text w)
    courses.map Course.raw = sentences ∧
      ((bot.chat text).run w).1.details = courses.map (fun c => c.answer.details) ∧
      Relay (requested text w) courses ((bot.answersTo text).run (requested text w)).2 ∧
      (∀ c ∈ courses, (bot.answerTop c.raw).run c.before = (c.answer, c.after) ∧
        bot.Tells c.raw c.before c.answer) ∧
      (w.Built → (∀ c ∈ courses, c.before.Built) ∧ ((bot.chat text).run w).2.Built) ∧
      (w.Compiled →
        (∀ c ∈ courses, c.before.Compiled) ∧ ((bot.chat text).run w).2.Compiled) := by
  intro sentences courses
  obtain ⟨hraws, -, hrelay, hnoted⟩ := bot.noted_courses sentences (requested text w)
  have hanswered : ∀ c ∈ courses, (bot.answerTop c.raw).run c.before = (c.answer, c.after) :=
    fun c hc => (hnoted c hc).answered
  have hlasts : ∀ {I : World → Prop}, World.Lasts bot I → I w →
      (∀ c ∈ courses, I c.before) ∧ I ((bot.chat text).run w).2 := fun h hw =>
    ⟨hrelay.lasts h hanswered (lasts_requested h text w hw), lasts_chat h text w hw⟩
  refine ⟨hraws, (bot.details_chat_eq text w).1, hrelay, fun c hc => ?_,
    hlasts (World.lasts_built bot), hlasts (World.lasts_compiled bot)⟩
  have htells := bot.tells_answerTop c.raw c.before
  rw [hanswered c hc] at htells
  exact ⟨hanswered c hc, htells⟩

end Bot

namespace Samples

/-- A greeting, and a category that asks for itself. -/
def greetingCategory : Category :=
  { pattern := [.word "HI"], template := { content := [.text "Hi!"] } }

def loopCategory : Category :=
  { pattern := [.word "LOOP"], template := { content := [.srai [.text "LOOP"]] } }

/-- What only the user has learned: another greeting, which asks for the first one. -/
def ownCategory : Category :=
  { pattern := [.word "HELLO"], template := { content := [.srai [.text "HI"]] } }

/-- A world in which a bot was taught the first two, and a user the other one. -/
def taughtWorld : World :=
  let fresh : World :=
    { knowledge := bot.initialKnowledge, reported := false, user := .new bot.config "user"
      clock := 0, log := [] }
  bot.taughtOwn ownCategory ((bot.addCategory (some "loops") loopCategory).run
    ((bot.addCategory none greetingCategory).run fresh).2).2

theorem compiled_taughtWorld : taughtWorld.Compiled := by
  have hlasts := World.lasts_compiled bot
  have hgreeting : greetingCategory.FromMarkup :=
    ⟨⟨⟨"HI", by decide +kernel⟩, nofun⟩, nofun⟩
  have hloop : loopCategory.FromMarkup := ⟨⟨⟨"LOOP", by decide +kernel⟩, nofun⟩, nofun⟩
  have hown : ownCategory.FromMarkup := ⟨⟨⟨"HELLO", by decide +kernel⟩, nofun⟩, nofun⟩
  refine hlasts.taughtOwn _ hown _ (Bot.lasts_addCategory hlasts _ hloop ?_)
  exact Bot.lasts_addCategory hlasts none hgreeting ⟨.empty _, .empty _⟩

/-- A pattern whose words go on to the topic, with other spellings of the separators, and a category
that is stored behind edges of its path. -/
def respelled : List (List Token × Template) :=
  [(compilePath bot.config
      [.word "A", .word "<THAT>", .word "*", .word "<TOPIC>", .word "*"] none none none,
      { content := [.text "X"] }),
    (compilePath bot.config [.word "A"] none none none, { content := [.text "Y"] })]

/-- A world with these two and a new user. -/
def respelledWorld : World :=
  { knowledge := { graph := .insertAll .ignoreCase respelled, size := 2 }, reported := false
    user := .new bot.config "user", clock := 0, log := [] }

theorem built_respelledWorld : respelledWorld.Built := ⟨Graph.builtUnder_insertAll _, .empty⟩

end Samples

/-- A match in the user's graph whose sub-request is matched in the other one, a sentence that nests
too deep, and one without a match; then a match along separators that are spelled otherwise. -/
theorem Bot.chat_details_tell_hello :
    let bot := Samples.bot.withLimit 2
    let text := "hello. loop! what?"
    let w := { Samples.taughtWorld with
      user := Samples.taughtWorld.user.setPredicate "topic" "loops" }
    ((bot.chat text).run w).1.details.map (fun d => (d.matchedPath?, d.origin?, d.outcome)) =
        [(some "HELLO <that> * <topic> *", some .own, .matched),
          (some "LOOP <that> * <topic> loops", some .shared, .aborted .recursionLimit),
          (none, none, .noMatch)] ∧
      (∀ c ∈ bot.courses (bot.config.splitSentences false text) (requested text w),
        ∀ found, bot.found? c.raw c.before = some found →
          (found.path, found.entry) ∈ (c.before.graphOf (originOf found)).listing) ∧
      ∀ c ∈ bot.courses ["a"] (requested "a" Samples.respelledWorld),
        ∀ found, bot.found? c.raw c.before = some found → ∃ shown listed,
          found.path = unwords shown ∧
            List.Forall₂ (LabelSpells (c.before.graphOf (originOf found)).comparer) shown listed ∧
            (listed.foldl Node.extendPath "", found.entry) ∈
              (c.before.graphOf (originOf found)).listing := by
  intro bot text w
  have hw : w.Compiled :=
    (World.lasts_compiled bot).setPredicate _ "topic" "loops" Samples.compiled_taughtWorld
  obtain ⟨-, -, -, htells, -, hcompiled⟩ := chat_details_tell bot text w
  obtain ⟨-, -, -, htells', hbuilt, -⟩ := chat_details_tell bot "a" Samples.respelledWorld
  refine ⟨by decide +kernel, fun c hc => ?_, fun c hc => ?_⟩
  · exact (htells c hc).2.listedAsShown ((hcompiled hw).1 c hc)
  · exact (htells' c hc).2.listed ((hbuilt Samples.built_respelledWorld).1 c hc)

/-- **A path that is told and is none of the graph:** the second category is found along the edges
of the first, whose separators are shown as the library writes them. -/
theorem Bot.respelled_path_not_listed :
    let w := Samples.respelledWorld
    let reply := ((Samples.bot.chat "a").run w).1
    w.Built ∧ reply.text = "Y" ∧
      reply.details.map (fun d => (d.matchedPath?, d.origin?, d.outcome)) =
        [(some "A <that> * <topic> *", some .shared, .matched)] ∧
      w.knowledge.graph.listing.map Prod.fst =
        ["A <THAT> * <TOPIC> *", "A <THAT> * <TOPIC> * <that> * <topic> *"] ∧
      "A <that> * <topic> *" ∉ w.knowledge.graph.listing.map Prod.fst := by
  intro w reply
  exact ⟨Samples.built_respelledWorld, by decide +kernel, by decide +kernel, by decide +kernel,
    by decide +kernel⟩

end Parley
