import Parley.Proofs.Talk.Course

/-!
# Two answers side by side

What built-in templates do depends on little: on the graphs, on what was said last, on the
predicates, and on whether the time is up. Two worlds that are alike in these are alike afterwards,
and the same sentence has the same answer in both. This also holds of two bots that differ in their
limits of recursion, as long as the same number of levels is left; if more are left on one side, it
holds unless the other side gives up at its limit.

Main results:

* `Simulation.agreement` — side by side unless the first side is spared;
* `Bot.agree_answer` — two answers to a sentence in worlds that are alike;
* `Bot.agree_subRequest`, `Bot.agree_answerTop` — the same for sub-requests and for the sentences of
  a request.
-/

namespace Parley

open Text

/-! ## Worlds that are alike -/

/-- Whether no template that is stored in a world uses elements of the host. -/
def World.BuiltIn (w : World) : Prop :=
  ∀ t, w.user.graph.Stores t ∨ w.knowledge.graph.Stores t → t.IsBuiltIn

/-- The template of a match is one of those that are stored. -/
theorem World.BuiltIn.of_searchAt {bot : Bot} {depth deadline : Nat} {sentence : String}
    {w : World} {found : Found Template} (h : w.BuiltIn)
    (hresult : (bot.searchAt depth deadline sentence w).result = .ok (some found)) :
    Part.areBuiltIn found.entry.content = true := by
  obtain ⟨g, hg, hstores⟩ := stores_of_search hresult
  refine h found.entry ?_
  rcases List.mem_cons.1 hg with rfl | hg
  · exact Or.inl hstores
  · rw [List.mem_singleton.1 hg] at hstores
    exact Or.inr hstores

/-- The templates of a world are built in if all that were added are. -/
theorem World.builtIn_of_insertAll {w : World} {cmp cmp' : Comparer}
    {own shared : List (List Token × Template)} (hown : w.user.graph = .insertAll cmp own)
    (hshared : w.knowledge.graph = .insertAll cmp' shared)
    (hbuiltIn : ∀ entry ∈ own ++ shared, entry.2.IsBuiltIn) : w.BuiltIn := by
  intro t ht
  rw [hown, hshared] at ht
  rcases ht with ht | ht
  · obtain ⟨path, hmem⟩ := Graph.exists_mem_of_stores_insertAll ht
    exact hbuiltIn _ (List.mem_append_left _ hmem)
  · obtain ⟨path, hmem⟩ := Graph.exists_mem_of_stores_insertAll ht
    exact hbuiltIn _ (List.mem_append_right _ hmem)

namespace Samples

/-- Three categories: one that asks for another, the other one, and one that asks for itself. -/
def categories : List (List Token × Template) :=
  [(compilePath bot.config [.word "HELLO"] none none none,
      { content := [.srai [.text "HI"], .text " there"] }),
    (compilePath bot.config [.word "HI"] none none none,
      { content := [.think [.set "mood" .predicate [.text "good"]], .text "Hi!"] }),
    (compilePath bot.config [.word "LOOP"] none none none,
      { content := [.srai [.text "LOOP"]] })]

/-- A world with these categories and a new user. -/
def talkative : World :=
  { knowledge := { graph := .insertAll .ignoreCase categories, size := 3 }, reported := false
    user := .new bot.config "user", clock := 0, log := [] }

theorem builtIn_talkative : talkative.BuiltIn :=
  @World.builtIn_of_insertAll talkative .ignoreCase .ignoreCase [] categories rfl rfl (by decide)

end Samples

/-- Whether two worlds are the same to built-in templates, which are the only ones there. The two
clocks stand still. -/
structure World.Alike (clock clock' : Nat) (w w' : World) : Prop where
  knowledge : w'.knowledge = w.knowledge
  graph : w'.user.graph = w.user.graph
  that : w'.user.that = w.user.that
  predicates : w'.user.predicates = w.user.predicates
  clock_left : w.clock = clock
  clock_right : w'.clock = clock'
  builtIn : w.BuiltIn

/-- Whether a world differs from an earlier one at most in what has been reported. -/
def World.Reported (w v : World) : Prop := ∃ log reported, v = { w with log, reported }

theorem World.reported_self (w : World) : w.Reported w := ⟨w.log, w.reported, rfl⟩

theorem World.reported_report (e : Event) (w : World) :
    w.Reported ((Session.report e).run w).2 := ⟨_, _, rfl⟩

theorem World.Reported.trans {w v u : World} (h : w.Reported v) (h' : v.Reported u) :
    w.Reported u := by
  obtain ⟨log, reported, rfl⟩ := h
  obtain ⟨log', reported', rfl⟩ := h'
  exact ⟨log', reported', rfl⟩

theorem Bot.reported_searched (bot : Bot) (depth deadline : Nat) (sentence : String) (w : World) :
    w.Reported (bot.searched depth deadline sentence w) := by
  have hprepared : w.Reported (bot.prepared w) := by
    rcases bot.prepared_eq_or w with h | ⟨log, h⟩
    · exact ⟨w.log, w.reported, h⟩
    · exact ⟨log, true, h⟩
  exact hprepared.trans ⟨_, _, rfl⟩

section Alike

variable {clock clock' : Nat} {w w' v v' : World}

/-- A world with built-in templates only is like itself. -/
theorem World.BuiltIn.alike (h : w.BuiltIn) : w.Alike w.clock w.clock w :=
  ⟨rfl, rfl, rfl, rfl, rfl, rfl, h⟩

/-- Reports do not matter for whether two worlds are alike. -/
theorem World.Alike.reported (h : w.Alike clock clock' w') (hv : w.Reported v)
    (hv' : w'.Reported v') : v.Alike clock clock' v' := by
  obtain ⟨log, reported, rfl⟩ := hv
  obtain ⟨log', reported', rfl⟩ := hv'
  exact ⟨h.knowledge, h.graph, h.that, h.predicates, h.clock_left, h.clock_right, h.builtIn⟩

theorem World.Alike.setPredicate (h : w.Alike clock clock' w') (name value : String) :
    ({ w with user := w.user.setPredicate name value }).Alike clock clock'
      { w' with user := w'.user.setPredicate name value } :=
  { knowledge := h.knowledge
    graph := h.graph
    that := h.that
    predicates := congrArg (fun ps : Entries String => ps.assign _ value) h.predicates
    clock_left := h.clock_left
    clock_right := h.clock_right
    builtIn := h.builtIn }

theorem World.Alike.predicate_eq (h : w.Alike clock clock' w') (config : Config) (name : String) :
    w'.user.predicate config name = w.user.predicate config name := by
  rw [User.predicate, User.predicate, h.predicates]

/-- What comes of one world in two ways has the same user if it is alike. -/
theorem World.Alike.user_eq {bot bot' : Bot} {u : World} (h : w.Alike clock clock' w')
    (hw : World.Evolves bot u w) (hw' : World.Evolves bot' u w') : w'.user = w.user := by
  rw [hw.user_eq, hw'.user_eq, h.predicates, h.graph]

/-- Whether two evaluations have come to the same point. -/
structure Run.Alike (clock clock' : Nat) (r r' : Run) : Prop where
  world : r.world.Alike clock clock' r'.world
  locals : r'.locals = r.locals

end Alike

/-! ## Agreement -/

/-- Whether two computations have the same result and lead to states that are related. If the first
is spared, it may give up at the limit of recursion instead. -/
def Agree {σ τ α : Type} (spared : Prop) (R : σ → τ → Prop) (x : Except Abort α × σ)
    (y : Except Abort α × τ) : Prop :=
  spared ∧ x.1 = .error .recursionLimit ∨ x.1 = y.1 ∧ R x.2 y.2

/-- Agreement goes on as long as both sides do. -/
def Simulation.agreement (spared : Prop) {σ τ : Type} (R : σ → τ → Prop) :
    Simulation (ExceptT Abort (StateM σ)) (ExceptT Abort (StateM τ)) where
  rel x y := ∀ s t, R s t → Agree spared R ((ExceptT.run x).run s) ((ExceptT.run y).run t)
  rel_pure a := fun s t h => Or.inr ⟨rfl, h⟩
  rel_bind := by
    intro α β x y f g hxy hfg s t hst
    rw [run_bind_eq, run_bind_eq]
    have hfirst := hxy s t hst
    generalize (ExceptT.run x).run s = a at hfirst ⊢
    generalize (ExceptT.run y).run t = b at hfirst ⊢
    obtain ⟨result, s'⟩ := a
    obtain ⟨result', t'⟩ := b
    rcases hfirst with ⟨hspared, hlimit⟩ | ⟨hresult, hR⟩
    · -- what comes second is left out on the side that is spared
      dsimp only at hlimit
      subst hlimit
      exact Or.inl ⟨hspared, rfl⟩
    · dsimp only at hresult hR
      subst hresult
      cases result with
      | ok a => exact hfg a s' t' hR
      | error cause => exact Or.inr ⟨rfl, hR⟩

/-! ## Two bots -/

/-- The same bot with another limit of recursion. -/
def Bot.withLimit (bot : Bot) (limit : Nat) : Bot :=
  { bot with config := { bot.config with recursionLimit := limit } }

variable {bot : Bot} {limit' depth depth' deadline deadline' clock clock' : Nat}

/-- What a sentence is matched as in worlds that are alike depends on its words only. -/
theorem Bot.inputAt_eq_of_alike {w w' : World} (h : w.Alike clock clock' w')
    {sentence sentence' : String} (hwords : words sentence' = words sentence) :
    (bot.withLimit limit').inputAt sentence' w' = bot.inputAt sentence w := by
  rw [inputAt_eq, inputAt_eq, h.that, User.topic, User.topic, h.predicate_eq, Input.ofTexts,
    Input.ofTexts, hwords]
  rfl

/-- Once a search has begun, it does not matter how deep it is. -/
theorem searchFrom_withDepth {α : Type} (options : SearchOptions) (limit depth : Nat)
    (input : Input) (root : Nat) (graphs : List (Graph α)) :
    searchFrom { options with recursionLimit := limit, depth } input root graphs =
      searchFrom options input root graphs := by
  induction graphs generalizing root with
  | nil => rfl
  | cons g graphs ih =>
    rw [searchFrom, searchFrom, ih]

/-- Searches within the limits have the same result in worlds that are alike. -/
theorem Bot.searchAt_eq_of_alike {w w' : World} (h : w.Alike clock clock' w')
    (htime : deadline ≤ clock ↔ deadline' ≤ clock') (hdepth : depth ≤ bot.config.recursionLimit)
    (hdepth' : depth' ≤ limit') {sentence sentence' : String}
    (hwords : words sentence' = words sentence) :
    ((bot.withLimit limit').searchAt depth' deadline' sentence' w').result =
      (bot.searchAt depth deadline sentence w).result := by
  have hoptions : (bot.withLimit limit').searchOptions depth' deadline' w'.clock =
      { bot.searchOptions depth deadline w.clock with
        recursionLimit := limit', depth := depth' } := by
    have hexpired : decide (deadline' ≤ clock') = decide (deadline ≤ clock) :=
      decide_eq_decide.2 htime.symm
    rw [searchOptions, searchOptions, h.clock_left, h.clock_right, hexpired]
    rfl
  rw [searchAt, searchAt, result_search _ _ hdepth', result_search _ _ hdepth, hoptions,
    searchFrom_withDepth, h.knowledge, h.graph, inputAt_eq_of_alike h hwords]

/-- To ask for a sub-request agrees if the answers do. -/
theorem Frame.agree_request {spared : Prop} {f f' : Frame} {ask ask' : Answerer}
    (htime : f.deadline ≤ clock ↔ f'.deadline ≤ clock')
    (hask : ∀ text w w', w.Alike clock clock' w' →
      Agree spared (World.Alike clock clock') ((ask text).run w) ((ask' text).run w'))
    (text : String) (r r' : Run) (h : r.Alike clock clock' r') :
    Agree spared (Run.Alike clock clock') ((ExceptT.run (f.request ask text)).run r)
      ((ExceptT.run (f'.request ask' text)).run r') := by
  rw [run_request, run_request, h.world.clock_left, h.world.clock_right]
  by_cases hup : f.deadline ≤ clock
  · -- the time is up on both sides
    rw [if_pos hup, if_pos (htime.1 hup)]
    refine Or.inr ⟨rfl, ?_, h.locals⟩
    exact h.world.reported (World.reported_report _ _) (World.reported_report _ _)
  · rw [if_neg hup, if_neg (mt htime.2 hup)]
    have hreported := h.world.reported
      (World.reported_report (.subRequest (f.depth + 1) text) r.world)
      (World.reported_report (.subRequest (f'.depth + 1) text) r'.world)
    rcases hask text _ _ hreported with hlimit | ⟨hresult, halike⟩
    · exact Or.inl hlimit
    · exact Or.inr ⟨hresult, halike, h.locals⟩

/-- The commands in two frames with the same captures agree if the answers to sub-requests do. -/
theorem Frame.agree_commands {spared : Prop} {f f' : Frame} {ask ask' : Answerer}
    (hbot : f'.bot = f.bot.withLimit limit') (hcaptures : f'.captures = f.captures)
    (htime : f.deadline ≤ clock ↔ f'.deadline ≤ clock')
    (hask : ∀ text w w', w.Alike clock clock' w' →
      Agree spared (World.Alike clock clock') ((ask text).run w) ((ask' text).run w')) :
    (Simulation.agreement spared (Run.Alike clock clock')).RelCommands (f.commands ask)
      (f'.commands ask') where
  star := by
    funext segment index
    show f.star segment index = f'.star segment index
    cases index with
    | zero =>
      rw [star, star, hbot]
      rfl
    | succ index =>
      rw [star, star, hbot, hcaptures]
      rfl
  lookup name scope := by
    intro r r' h
    cases scope with
    | predicate =>
      -- predicates have the same values in worlds that are alike
      refine Or.inr ⟨congrArg Except.ok ?_, h⟩
      show r.world.user.predicate f.bot.config name = r'.world.user.predicate f'.bot.config name
      rw [hbot]
      exact (h.world.predicate_eq f.bot.config name).symm
    | «variable» =>
      refine Or.inr ⟨congrArg Except.ok ?_, h⟩
      show f.variableValue r.locals name = f'.variableValue r'.locals name
      rw [variableValue, variableValue, hbot, h.locals]
      rfl
  assign name value scope := by
    intro r r' h
    cases scope with
    | predicate => exact Or.inr ⟨rfl, h.world.setPredicate name value, h.locals⟩
    | «variable» =>
      -- the variables of a sentence are no part of the world
      refine Or.inr ⟨rfl, h.world, ?_⟩
      show f'.assignVariable r'.locals name value = f.assignVariable r.locals name value
      rw [assignVariable, assignVariable, hbot, h.locals]
      rfl
  request := agree_request htime hask

/-- Whether two answers to a sentence are the same and lead to worlds that are alike, unless the
first is spared and is given up at the limit of recursion. -/
def AgreeAnswers (spared : Prop) (clock clock' : Nat) (x y : Answer × World) : Prop :=
  spared ∧ x.1.result = .error .recursionLimit ∨ x.1 = y.1 ∧ x.2.Alike clock clock' y.2

/-- Sub-requests agree if the answers to their sentences do. -/
theorem Bot.agree_subRequest_of_answers {spared : Prop}
    (hanswer : ∀ raw w w', w.Alike clock clock' w' → AgreeAnswers spared clock clock'
      ((bot.answer depth deadline raw).run w)
      (((bot.withLimit limit').answer depth' deadline' raw).run w'))
    (text : String) (w w' : World) (h : w.Alike clock clock' w') :
    Agree spared (World.Alike clock clock') ((bot.subRequest depth deadline text).run w)
      (((bot.withLimit limit').subRequest depth' deadline' text).run w') := by
  rw [run_subRequest, run_subRequest]
  -- both texts have the same sentences, because the bots differ in their limits only
  let S := Simulation.agreement spared (World.Alike clock clock')
  have hsentences : S.rel
      ((bot.config.splitSentences false text).mapM fun s =>
        responding (bot.answer depth deadline s))
      ((bot.config.splitSentences false text).mapM fun s =>
        responding ((bot.withLimit limit').answer depth' deadline' s)) := by
    refine Simulation.mapM (fun raw => ?_) _
    intro v v' hv
    rw [run_responding, run_responding]
    rcases hanswer raw v v' hv with hlimit | ⟨hanswers, halike⟩
    · exact Or.inl hlimit
    · exact Or.inr ⟨congrArg Answer.result hanswers, halike⟩
  exact S.rel_bind hsentences (fun outputs => S.rel_pure (joinOutputs outputs)) w w' h

theorem Bot.sentence_answer (raw : String) (w : World) :
    ((bot.answer depth deadline raw).run w).1.sentence = bot.config.normalize raw := by
  rw [run_answer]
  dsimp only
  cases (bot.searchAt depth deadline (bot.config.normalize raw) w).result with
  | error cause => rfl
  | ok found? => cases found? <;> rfl

/-- Sentences with the same words have the same answers in worlds that are alike, but for the
sentence that is kept in them, if the sub-requests one level deeper agree. -/
theorem Bot.agree_answer_of_subRequests {spared : Prop}
    (hlevels : bot.config.recursionLimit + 1 - depth ≤ limit' + 1 - depth')
    (hspared : spared ∨ bot.config.recursionLimit + 1 - depth = limit' + 1 - depth')
    (htime : deadline ≤ clock ↔ deadline' ≤ clock') {raw raw' : String}
    (hwords : words (bot.config.normalize raw') = words (bot.config.normalize raw)) {w w' : World}
    (h : w.Alike clock clock' w')
    (hask : depth ≤ bot.config.recursionLimit → ∀ text v v', v.Alike clock clock' v' →
      Agree spared (World.Alike clock clock') ((bot.subRequest (depth + 1) deadline text).run v)
        (((bot.withLimit limit').subRequest (depth' + 1) deadline' text).run v')) :
    let x := (bot.answer depth deadline raw).run w
    let y := ((bot.withLimit limit').answer depth' deadline' raw').run w'
    spared ∧ x.1.result = .error .recursionLimit ∨
      y.1 = { x.1 with sentence := bot.config.normalize raw' } ∧ x.2.Alike clock clock' y.2 := by
  have hsentence : (bot.withLimit limit').config.normalize raw' = bot.config.normalize raw' := rfl
  dsimp only
  rw [run_answer, run_answer, hsentence]
  generalize bot.config.normalize raw = sentence at hwords ⊢
  generalize bot.config.normalize raw' = sentence' at hwords ⊢
  dsimp only
  rw [inputAt_eq_of_alike h hwords]
  have hsearched := h.reported (bot.reported_searched depth deadline sentence w)
    ((bot.withLimit limit').reported_searched depth' deadline' sentence' w')
  by_cases hdepth : depth ≤ bot.config.recursionLimit
  · have hdepth' : depth' ≤ limit' := by omega
    rw [searchAt_eq_of_alike h htime hdepth hdepth' hwords]
    cases hresult : (bot.searchAt depth deadline sentence w).result with
    | error cause => exact Or.inr ⟨rfl, hsearched⟩
    | ok found? =>
      cases found? with
      | none =>
        -- the answer to a sentence without a match is the same for both bots
        refine Or.inr ⟨rfl, ?_⟩
        exact hsearched.reported (World.reported_report _ _) (World.reported_report _ _)
      | some found =>
        -- the template is built in, and its commands do not look at the sentence
        have hcommands := @Frame.agree_commands limit' clock clock' spared
          (bot.frameOf depth deadline sentence found)
          ((bot.withLimit limit').frameOf depth' deadline' sentence' found) _ _ rfl rfl htime
          (hask hdepth)
        have heval := Simulation.interpretAll hcommands found.entry.content
          (Or.inl (h.builtIn.of_searchAt hresult))
        have hworld := hsearched.reported (World.reported_report (matchEvent found) _)
          (World.reported_report (matchEvent found) _)
        -- a template starts without variables on both sides
        rcases heval { world := _ } { world := _ } ⟨hworld, rfl⟩ with hlimit | ⟨hresults, hruns⟩
        · exact Or.inl hlimit
        · refine Or.inr ⟨?_, hruns.world⟩
          exact congrArg (Answer.mk sentence' _ (some (found.path, originOf found))) hresults.symm
  · -- the first side is given up at once, and the second one too if it has no more levels
    rw [searchAt_of_limit_lt (Nat.lt_of_not_le hdepth)]
    rcases hspared with hspared | hsame
    · exact Or.inl ⟨hspared, rfl⟩
    · have hdepth' : (bot.withLimit limit').config.recursionLimit < depth' := by
        show limit' < depth'
        omega
      rw [searchAt_of_limit_lt hdepth']
      exact Or.inr ⟨rfl, hsearched⟩

/-- **The same sentence has the same answer in worlds that are alike,** if as many levels of
recursion are left. If more are left on the second side, the first side may be given up at its
limit. -/
theorem Bot.agree_answer {spared : Prop}
    (hlevels : bot.config.recursionLimit + 1 - depth ≤ limit' + 1 - depth')
    (hspared : spared ∨ bot.config.recursionLimit + 1 - depth = limit' + 1 - depth')
    (htime : deadline ≤ clock ↔ deadline' ≤ clock') (raw : String) (w w' : World)
    (h : w.Alike clock clock' w') :
    AgreeAnswers spared clock clock' ((bot.answer depth deadline raw).run w)
      (((bot.withLimit limit').answer depth' deadline' raw).run w') := by
  -- induction on the levels that are left on the first side
  induction hleft : bot.config.recursionLimit + 1 - depth using Nat.strongRecOn
    generalizing depth depth' raw w w' with
  | _ left ih =>
    subst hleft
    -- sub-requests have fewer levels left
    have hask : depth ≤ bot.config.recursionLimit → ∀ text v v', v.Alike clock clock' v' →
        Agree spared (World.Alike clock clock') ((bot.subRequest (depth + 1) deadline text).run v)
          (((bot.withLimit limit').subRequest (depth' + 1) deadline' text).run v') := by
      intro hdepth
      refine agree_subRequest_of_answers fun raw v v' hv => ?_
      exact ih _ (by omega) (by omega) (hspared.imp_right fun hsame => by omega) raw v v' hv rfl
    have hwords := Eq.refl (words (bot.config.normalize raw))
    refine (agree_answer_of_subRequests hlevels hspared htime hwords h hask).imp_right ?_
    rintro ⟨hanswer, halike⟩
    rw [← @sentence_answer bot depth deadline raw w] at hanswer
    exact ⟨hanswer.symm, halike⟩

/-- The same sub-request has the same result in worlds that are alike, under the same conditions. -/
theorem Bot.agree_subRequest {spared : Prop}
    (hlevels : bot.config.recursionLimit + 1 - depth ≤ limit' + 1 - depth')
    (hspared : spared ∨ bot.config.recursionLimit + 1 - depth = limit' + 1 - depth')
    (htime : deadline ≤ clock ↔ deadline' ≤ clock') (text : String) (w w' : World)
    (h : w.Alike clock clock' w') :
    Agree spared (World.Alike clock clock') ((bot.subRequest depth deadline text).run w)
      (((bot.withLimit limit').subRequest depth' deadline' text).run w') :=
  agree_subRequest_of_answers (agree_answer hlevels hspared htime) text w w' h

/-- A sentence of a request has the answer that the same sentence has elsewhere. Each sentence of a
request has its own time, which is up at once or not at all. -/
theorem Bot.agree_answerTop {spared : Prop}
    (hlevels : bot.config.recursionLimit + 1 - depth ≤ limit' + 1)
    (hspared : spared ∨ bot.config.recursionLimit + 1 - depth = limit' + 1)
    (htime : deadline ≤ clock ↔ bot.config.timeout = 0) (raw : String) {w w' : World}
    (h : w.Alike clock clock' w') :
    AgreeAnswers spared clock clock' ((bot.answer depth deadline raw).run w)
      (((bot.withLimit limit').answerTop raw).run w') := by
  refine agree_answer hlevels hspared ?_ raw w w' h
  rw [htime, ← h.clock_right]
  show _ ↔ w'.clock + bot.config.timeout ≤ w'.clock
  omega

end Parley
