import Parley.Proofs.Search.Stored
import Parley.Proofs.Talk.Context
import Parley.Proofs.Talk.Interpretation

/-!
# How one sentence is answered

The course of an answer in a world: the substitutions are in use from then on, one search is made,
and by its result the sentence is given up, gets the answer to sentences without a match, or has the
template of the match evaluated, whose sub-requests are answered one level deeper.

Main results:

* `Bot.run_answer` — the three courses, by the result of the search;
* `Bot.searchAt_of_limit_lt` — beyond the limit of recursion, only the first of them is possible;
* `Bot.run_subRequest` — a sub-request goes through its sentences up to the first that is given up;
* `Frame.run_request` — how a template asks for one.
-/

namespace Parley

open Text

/-! ## Sub-requests -/

/-- Only the text of an answer; a sentence that is given up ends what it is a part of. -/
def responding (s : Session Answer) : ExceptT Abort Session String :=
  ExceptT.mk (Answer.result <$> s)

/-- The world is the one behind the answer, whether it is a text or not. -/
theorem run_responding (s : Session Answer) (w : World) :
    (ExceptT.run (responding s)).run w = ((s.run w).1.result, (s.run w).2) := rfl

/-- To answer sentences up to the first that is given up is to go through their responses. -/
theorem run_answerAll (answer : String → Session Answer) (sentences : List String) (w : World) :
    (answerAll answer sentences).run w =
      (ExceptT.run (sentences.mapM fun s => responding (answer s))).run w := by
  induction sentences generalizing w with
  | nil => rfl
  | cons sentence rest ih =>
    rw [answerAll, List.mapM_cons, run_bind_eq, run_bind_state, run_responding]
    obtain ⟨a, w₁⟩ := (answer sentence).run w
    dsimp only
    -- both go on with the other sentences exactly if there is an answer to the first
    cases a.result with
    | error cause => rfl
    | ok output =>
      dsimp only
      rw [run_bind_eq, run_bind_state, ih]
      obtain ⟨outputs, w₂⟩ := (ExceptT.run (rest.mapM fun s => responding (answer s))).run w₁
      cases outputs <;> rfl

/-- A session in an evaluation changes the world and cannot fail. -/
theorem Evaluation.run_session {α : Type} (s : Session α) (r : Run) :
    (ExceptT.run (session s)).run r =
      (.ok (s.run r.world).1, { r with world := (s.run r.world).2 }) := rfl

/-- If the deadline has come, that is reported, and the evaluation is given up. -/
theorem Frame.run_checkTime (f : Frame) (r : Run) :
    (ExceptT.run f.checkTime).run r =
      if f.deadline ≤ r.world.clock then
        (.error .timeout,
          { r with
            world :=
              ((Session.report (.templateTimeout r.world.user.id f.sentence)).run r.world).2 })
      else (.ok (), r) := by
  rw [checkTime, run_bind_eq]
  show (ExceptT.run (ite (f.deadline ≤ r.world.clock) _ _ : Evaluation Unit)).run r = _
  split <;> rfl

/-- A sub-request is not begun when the time is up, and otherwise has the result of its answer. -/
theorem Frame.run_request (f : Frame) (answer : Answerer) (text : String) (r : Run) :
    (ExceptT.run (f.request answer text)).run r =
      if f.deadline ≤ r.world.clock then
        (.error .timeout,
          { r with
            world :=
              ((Session.report (.templateTimeout r.world.user.id f.sentence)).run r.world).2 })
      else
        let answered := (answer text).run
          ((Session.report (.subRequest (f.depth + 1) text)).run r.world).2
        (answered.1, { r with world := answered.2 }) := by
  rw [request, run_bind_eq, run_checkTime]
  by_cases h : f.deadline ≤ r.world.clock
  · rw [if_pos h, if_pos h]
  · rw [if_neg h, if_neg h]
    dsimp only
    -- first the report, then the answer
    rw [run_bind_eq, Evaluation.run_session]
    dsimp only
    rw [run_bind_eq, Evaluation.run_session]
    dsimp only
    cases ((answer text).run
      ((Session.report (.subRequest (f.depth + 1) text)).run r.world).2).1 <;> rfl

namespace Bot

variable {bot : Bot} {depth deadline : Nat}

/-- Answers a text as a sub-request, with its sentences `depth` levels deep. -/
def subRequest (bot : Bot) (depth deadline : Nat) : Answerer := fun text => do
  return (← answerAll (bot.answer depth deadline) (bot.config.splitSentences false text)).map
    joinOutputs

/-- A sub-request goes through the responses to its sentences. -/
theorem run_subRequest (text : String) (w : World) :
    (bot.subRequest depth deadline text).run w =
      (ExceptT.run (do
        let outputs ← (bot.config.splitSentences false text).mapM fun s =>
          responding (bot.answer depth deadline s)
        return joinOutputs outputs)).run w := by
  rw [subRequest, run_bind_state, run_answerAll, run_bind_eq]
  obtain ⟨outputs, w₁⟩ := (ExceptT.run ((bot.config.splitSentences false text).mapM fun s =>
    responding (bot.answer depth deadline s))).run w
  cases outputs <;> rfl

/-! ## Up to the search -/

/-- A world after the substitutions have been used: what there is to report about them has been
reported. -/
def prepared (bot : Bot) (w : World) : World :=
  if !w.reported && !bot.config.substitutions.items.isEmpty then
    { w with log := bot.config.substitutions.events.reverse ++ w.log, reported := true }
  else w

/-- To normalize is to prepare the world once. -/
theorem run_normalize (text : String) (w : World) :
    (bot.normalize text).run w = (bot.config.normalize text, bot.prepared w) := by
  refine Prod.ext (bot.fst_run_normalize text w) ?_
  rw [normalize, run_bind_state, prepared]
  by_cases h : (!w.reported && !bot.config.substitutions.items.isEmpty) = true
  · rw [if_pos h]
    exact congrArg (fun s : Session String => (s.run w).2) (if_pos h)
  · rw [if_neg h]
    exact congrArg (fun s : Session String => (s.run w).2) (if_neg h)

/-- Preparing changes only what there is to report. -/
theorem prepared_eq_or (bot : Bot) (w : World) :
    bot.prepared w = w ∨ ∃ log, bot.prepared w = { w with log, reported := true } := by
  unfold prepared
  split
  · exact Or.inr ⟨_, rfl⟩
  · exact Or.inl rfl

/-- Only the first use of the substitutions is reported. -/
theorem prepared_prepared (bot : Bot) (w : World) :
    bot.prepared (bot.prepared w) = bot.prepared w := by
  rcases bot.prepared_eq_or w with h | ⟨log, h⟩
  · rw [h, h]
  · rw [h]
    exact if_neg Bool.false_ne_true

/-- To prepare the substitutions changes nothing about the user. -/
@[simp] theorem user_prepared (bot : Bot) (w : World) : (bot.prepared w).user = w.user := by
  rcases bot.prepared_eq_or w with h | ⟨log, h⟩ <;> rw [h]

/-- To prepare the substitutions changes nothing about what the bot knows. -/
@[simp] theorem knowledge_prepared (bot : Bot) (w : World) :
    (bot.prepared w).knowledge = w.knowledge := by
  rcases bot.prepared_eq_or w with h | ⟨log, h⟩ <;> rw [h]

/-- To prepare the substitutions takes no time. -/
@[simp] theorem clock_prepared (bot : Bot) (w : World) : (bot.prepared w).clock = w.clock := by
  rcases bot.prepared_eq_or w with h | ⟨log, h⟩ <;> rw [h]

/-- The context of a sentence is read off the world, which is prepared. -/
theorem run_contextOf (sentence : String) (w : World) :
    (bot.contextOf sentence).run w = (bot.inputAt sentence w, bot.prepared w) := by
  refine Prod.ext rfl ?_
  rw [contextOf, run_bind_state, run_bind_state, run_normalize]
  rfl

/-- What a sentence is matched as does not depend on what has been reported. -/
theorem inputAt_prepared (sentence : String) (w : World) :
    bot.inputAt sentence (bot.prepared w) = bot.inputAt sentence w := by
  rw [inputAt_eq, inputAt_eq, user_prepared]

/-- The search for a sentence that is ready for matching. -/
def searchAt (bot : Bot) (depth deadline : Nat) (sentence : String) (w : World) :
    SearchResult Template :=
  search (bot.searchOptions depth deadline w.clock) [w.user.graph, w.knowledge.graph]
    (bot.inputAt sentence w)

/-- A world after the search for a sentence. -/
def searched (bot : Bot) (depth deadline : Nat) (sentence : String) (w : World) : World :=
  ((Session.reportAll (bot.searchAt depth deadline sentence w).events).run (bot.prepared w)).2

/-- Beyond the limit of recursion a sentence is given up before anything is looked for. -/
theorem searchAt_of_limit_lt (h : bot.config.recursionLimit < depth) (sentence : String)
    (w : World) : (bot.searchAt depth deadline sentence w).result = .error .recursionLimit := by
  rw [searchAt, search]
  exact congrArg SearchResult.result (if_pos h)

/-- Up to the limit of recursion a sentence is given up only if the time is up. -/
theorem timeout_of_searchAt (hdepth : depth ≤ bot.config.recursionLimit) {sentence : String}
    {w : World} {cause : Abort}
    (h : (bot.searchAt depth deadline sentence w).result = .error cause) :
    cause = .timeout ∧ deadline ≤ w.clock := by
  rw [searchAt, result_search _ _ hdepth] at h
  refine ⟨eq_timeout_of_searchFrom h, ?_⟩
  exact of_decide_eq_true (searchFrom_eq_error_iff.1 ⟨cause, h⟩).1

/-- A search that is not given up was not too deep. -/
theorem depth_le_of_searchAt {sentence : String} {w : World} {found? : Option (Found Template)}
    (h : (bot.searchAt depth deadline sentence w).result = .ok found?) :
    depth ≤ bot.config.recursionLimit :=
  @depth_le_of_search_eq_ok _ (bot.searchOptions depth deadline w.clock) _ _ _ h

/-! ## After the search -/

/-- The frame of a match. -/
def frameOf (bot : Bot) (depth deadline : Nat) (sentence : String) (found : Found Template) :
    Frame :=
  { bot, sentence, depth, deadline, captures := found.captures, path := found.path
    template := found.entry }

/-- The evaluation of the template of a match. -/
def evaluating (bot : Bot) (depth deadline : Nat) (sentence : String) (found : Found Template) :
    Evaluation String :=
  Part.interpretAll
    ((bot.frameOf depth deadline sentence found).commands (bot.subRequest (depth + 1) deadline))
    found.entry.content

/-- An answer in terms of its search. -/
theorem run_answer (raw : String) (w : World) :
    (bot.answer depth deadline raw).run w =
      let sentence := bot.config.normalize raw
      let input := bot.inputAt sentence w
      let w₁ := bot.searched depth deadline sentence w
      match (bot.searchAt depth deadline sentence w).result with
      | .error cause => ({ sentence, input, matched? := none, result := .error cause }, w₁)
      | .ok none =>
        ({ sentence, input, matched? := none, result := .ok bot.config.defaultResponse },
          ((Session.report (.noMatch w.user.id input.render)).run w₁).2)
      | .ok (some found) =>
        let w₂ := ((Session.report (matchEvent found)).run w₁).2
        let evaluated :=
          (ExceptT.run (bot.evaluating depth deadline sentence found)).run { world := w₂ }
        ({ sentence, input, matched? := some (found.path, originOf found), result := evaluated.1 },
          evaluated.2.world) := by
  -- the search is made after the substitutions were used, which makes no difference to it
  have hsearch : search (bot.searchOptions depth deadline (bot.prepared w).clock)
      [(bot.prepared w).user.graph, (bot.prepared w).knowledge.graph]
      (bot.inputAt (bot.config.normalize raw) w) =
        bot.searchAt depth deadline (bot.config.normalize raw) w := by
    rw [user_prepared, knowledge_prepared, clock_prepared, searchAt]
  rw [answer, run_bind_state, run_normalize, run_bind_state, run_contextOf, inputAt_prepared,
    prepared_prepared, run_bind_state]
  dsimp only [searched]
  -- the three ways in which the answer goes on after its search
  split
  · next h =>
    rw [hsearch.symm.trans h]
    rfl
  · next h =>
    rw [hsearch.symm.trans h, ← user_prepared bot w]
    rfl
  · next h =>
    rw [hsearch.symm.trans h]
    dsimp only
    rw [evaluating, ← Part.evaluateAll_eq_interpretAll]
    rfl

/-! ## Requests -/

/-- A reply is made of the answers that are given after the request was recorded. -/
theorem fst_run_chat (text : String) (w : World) :
    ((bot.chat text).run w).1 = bot.replyOf ((bot.answersTo text).run (requested text w)).1 := by
  rw [run_chat]

/-- A reply is recorded with the user, and maybe the substitutions were prepared before. -/
theorem snd_run_recordReply (reply : Reply) (w : World) :
    ∃ v, (v = w ∨ v = bot.prepared w) ∧
      ((bot.recordReply reply).run w).2 = { v with user := v.user.addReply bot.config reply } := by
  unfold recordReply
  split
  · exact ⟨w, Or.inl rfl, rfl⟩
  · have hprepared : ((bot.normalize "").run w).2 = bot.prepared w := by
      rw [run_normalize]
    refine ⟨_, Or.inr hprepared, ?_⟩
    generalize bot.normalize "" = normalizing
    rfl

/-- To record a reply changes nothing about the user but what it is recorded for. -/
theorem user_snd_run_recordReply (reply : Reply) (w : World) :
    ((bot.recordReply reply).run w).2.user = w.user.addReply bot.config reply := by
  obtain ⟨v, rfl | rfl, hv⟩ := bot.snd_run_recordReply reply w
  · rw [hv]
  · rw [hv, user_prepared]

/-- After a request, the user has the reply to it. -/
theorem user_snd_run_chat (text : String) (w : World) :
    ((bot.chat text).run w).2.user =
      ((bot.answersTo text).run (requested text w)).2.user.addReply bot.config
        ((bot.chat text).run w).1 := by
  rw [fst_run_chat, run_chat]
  -- nothing is said about the answers, so they must not be computed here
  generalize (bot.answersTo text).run (requested text w) = answers
  exact user_snd_run_recordReply _ _

end Bot

/-! ## Giving up -/

/-- Why there is no value, if there is none. -/
def causeOf? {α : Type} : Except Abort α → Option Abort
  | .error cause => some cause
  | .ok _ => none

/-- Why a sentence was given up, if it was. -/
def Outcome.cause? : Outcome → Option Abort
  | .aborted cause => some cause
  | _ => none

/-- An outcome has a cause exactly if the sentence was given up for it. -/
theorem Outcome.cause?_eq_some_iff {o : Outcome} {cause : Abort} :
    o.cause? = some cause ↔ o = .aborted cause := by
  cases o <;> simp [cause?]

namespace Answer

/-- Why a sentence was given up, if it was. -/
def cause? (a : Answer) : Option Abort := causeOf? a.result

/-- The cause of an answer is that of its result. -/
theorem cause?_of_error {a : Answer} {cause : Abort} (h : a.result = .error cause) :
    a.cause? = some cause := by
  rw [cause?, h, causeOf?]

/-- An answer with a text has none. -/
theorem cause?_of_ok {a : Answer} {output : String} (h : a.result = .ok output) :
    a.cause? = none := by
  rw [cause?, h, causeOf?]

/-- What is told of an answer has the same cause. -/
theorem cause?_outcome (a : Answer) : a.outcome.cause? = a.cause? := by
  rw [outcome, cause?]
  cases a.result with
  | error cause => rfl
  | ok output => cases a.matched? <;> rfl

end Answer

end Parley
