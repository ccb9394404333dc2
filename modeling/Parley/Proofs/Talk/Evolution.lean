import Mathlib.Logic.Relation
import Parley.Chat

/-!
# What talking does to the world

However a template is written and however deep its sub-requests nest, an evaluation changes the
world only in a few ways. `World.Step` lists them, and every session that answers a sentence is a
sequence of such steps. What no step changes is therefore not changed by any answer, and a request
changes the user only by such steps between the recording of the request and the recording of the
reply.

Main results:

* `Part.evolves_evaluateAll` — a template evolves the world if its sub-requests do;
* `Bot.evolves_answer` — answering a sentence evolves the world, at every depth;
* `Bot.user_run_chat` — what a request does to the user.
-/

namespace Parley

open Text

/-! ## Steps -/

/-- One change of the world while a sentence is answered. -/
inductive World.Step (bot : Bot) : World → World → Prop where
  /-- Something is reported. -/
  | report (w : World) (events : List Event) : Step bot w { w with log := events ++ w.log }
  /-- The substitutions have been used. -/
  | prepare (w : World) : Step bot w { w with reported := true }
  /-- A category is added to the graph of all users, if its path is new. -/
  | learnShared (w : World) (topicName? : Option String) (c : Category) :
      Step bot w
        { w with knowledge := (w.knowledge.add (c.path bot.config topicName?) c.template).1 }
  /-- A category with a new path is added to the user's own graph. -/
  | learnOwn (w : World) (c : Category)
      (new : (w.user.graph.insert (c.path bot.config none) c.template).2 = none) :
      Step bot w
        { w with
          user :=
            { w.user with
              graph := (w.user.graph.insert (c.path bot.config none) c.template).1 } }
  /-- A predicate of the user gets a value. -/
  | setPredicate (w : World) (name value : String) :
      Step bot w { w with user := w.user.setPredicate name value }
  /-- Time passes. -/
  | wait (w : World) (time : Nat) : Step bot w { w with clock := w.clock + time }

/-- Some changes of the world, one after the other, while a sentence is answered. -/
abbrev World.Evolves (bot : Bot) : World → World → Prop :=
  Relation.ReflTransGen (World.Step bot)

/-- No step changes what was said last. -/
theorem World.Step.that_eq {bot : Bot} {w w' : World} (h : World.Step bot w w') :
    w'.user.that = w.user.that := by
  cases h <;> rfl

/-- However many steps are made, what was said last stays. -/
theorem World.Evolves.that_eq {bot : Bot} {w w' : World} (h : World.Evolves bot w w') :
    w'.user.that = w.user.that := by
  induction h with
  | refl => rfl
  | tail _ hstep ih => rw [hstep.that_eq, ih]

/-- Of a user, only the predicates and the graph are changed while sentences are answered. -/
theorem World.Evolves.user_eq {bot : Bot} {w w' : World} (h : World.Evolves bot w w') :
    w'.user = { w.user with predicates := w'.user.predicates, graph := w'.user.graph } := by
  induction h with
  | refl => rfl
  | tail _ hstep ih =>
    cases hstep with
    | report | prepare | learnShared | wait => exact ih
    | learnOwn c new =>
      dsimp only
      rw [ih]
    | setPredicate name value =>
      dsimp only [User.setPredicate]
      rw [ih]

/-! ## Sessions -/

namespace Session

variable {bot : Bot} {β γ : Type}

/-- Whether a session changes the world only step by step. -/
def Evolves (bot : Bot) (s : Session β) : Prop :=
  ∀ w, World.Evolves bot w (s.run w).2

/-- A result costs no step. -/
theorem evolves_pure (b : β) : Evolves bot (pure b) := fun _ => .refl

/-- Looking at the world is no step. -/
theorem evolves_get : Evolves bot get := fun _ => .refl

/-- One session after the other, their steps after one another. -/
theorem Evolves.bind {s : Session β} {f : β → Session γ} (hs : Evolves bot s)
    (hf : ∀ b, Evolves bot (f b)) : Evolves bot (s >>= f) := fun w =>
  (hs w).trans (hf (s.run w).1 (s.run w).2)

/-- What is done with the world that was looked at need only evolve that one. -/
theorem evolves_get_bind {f : World → Session γ}
    (hf : ∀ w, World.Evolves bot w ((f w).run w).2) : Evolves bot (get >>= f) := fun w =>
  hf w

/-- What is made of the result is no step. -/
theorem Evolves.map {s : Session β} (hs : Evolves bot s) (f : β → γ) : Evolves bot (f <$> s) :=
  fun w => hs w

/-- A report is one step. -/
theorem evolves_report (e : Event) : Evolves bot (report e) := fun w =>
  .single (.report w [e])

/-- Some reports at once are one step. -/
theorem evolves_reportAll (es : List Event) : Evolves bot (reportAll es) := fun w =>
  .single (.report w es.reverse)

/-- Over a list, whatever is done with each element in turn. -/
theorem evolves_mapM {f : β → Session γ} (hf : ∀ b, Evolves bot (f b)) (l : List β) :
    Evolves bot (l.mapM f) := by
  induction l with
  | nil => exact evolves_pure []
  | cons b rest ih =>
    rw [List.mapM_cons]
    exact (hf b).bind fun c => ih.bind fun cs => evolves_pure (c :: cs)

end Session

namespace Bot

variable {bot : Bot}

/-- The faults of the substitutions are reported before they are used for the first time. -/
theorem evolves_normalize (text : String) : Session.Evolves bot (bot.normalize text) := by
  refine Session.evolves_get_bind ?_
  intro w
  split
  · -- the faults of the substitutions are reported once, before the first use
    exact (Session.evolves_reportAll _ w).trans (.single (.prepare _))
  · exact .refl

/-- Reports about the substitutions change nothing about the sentence. -/
theorem fst_run_normalize (bot : Bot) (text : String) (w : World) :
    ((bot.normalize text).run w).1 = bot.config.normalize text := by
  rw [normalize, StateT.run_bind]
  show ((ite _ _ _ : Session String).run w).1 = _
  split <;> rfl

/-- A category gets into the shared graph, or its path is reported to be there already. -/
theorem evolves_addCategory (topicName? : Option String) (c : Category) :
    Session.Evolves bot (bot.addCategory topicName? c) := by
  refine Session.evolves_get_bind fun w => ?_
  have hset := @World.Step.learnShared bot w topicName? c
  cases hadd : w.knowledge.add (c.path bot.config topicName?) c.template with
  | mk knowledge existing? =>
    rw [hadd] at hset
    -- a path that is not new is reported, and its category stays
    cases existing? with
    | none => exact .single hset
    | some existing => exact (Relation.ReflTransGen.single hset).trans (Session.evolves_report _ _)

/-- The same for what a script teaches the bot, with a report of what was learned. -/
theorem evolves_learnShared (c : Category) : Session.Evolves bot (bot.learnShared c) := by
  refine (evolves_addCategory none c).bind fun existing? => ?_
  cases existing? with
  | none => exact (Session.evolves_report _).bind fun _ => Session.evolves_pure _
  | some existing => exact Session.evolves_pure _

/-- What a script teaches the user gets into the graph of the user. -/
theorem evolves_learnOwn (c : Category) : Session.Evolves bot (bot.learnOwn c) := by
  refine Session.evolves_get_bind fun w => ?_
  have hset := @World.Step.learnOwn bot w c
  cases hinsert : w.user.graph.insert (c.path bot.config none) c.template with
  | mk graph existing? =>
    rw [hinsert] at hset
    cases existing? with
    | none => exact (Relation.ReflTransGen.single (hset rfl)).trans (Session.evolves_report _ _)
    | some existing =>
      -- the user's graph is left as it was
      exact Session.evolves_report _ w

/-- The context of a search is normalized without a change. -/
theorem evolves_contextOf (sentence : String) :
    Session.Evolves bot (bot.contextOf sentence) :=
  Session.evolves_get_bind fun w => (evolves_normalize (w.user.topic bot.config)).map _ w

end Bot

/-! ## Evaluations -/

namespace Evaluation

variable {bot : Bot} {β γ : Type}

/-- Whether an evaluation changes the world only step by step, whether it is given up or not. -/
def Evolves (bot : Bot) (e : Evaluation β) : Prop :=
  ∀ r, World.Evolves bot r.world ((ExceptT.run e).run r).2.world

/-- A result costs no step. -/
theorem evolves_pure (b : β) : Evolves bot (pure b) := fun _ => .refl

/-- To give up costs none either. -/
theorem evolves_throw (cause : Abort) : Evolves bot (throw cause : Evaluation β) := fun _ => .refl

/-- Looking at the state of the evaluation is no step. -/
theorem evolves_get : Evolves bot (get : Evaluation Run) := fun _ => .refl

/-- The second evaluation has its steps only if the first one was not given up. -/
theorem Evolves.bind {e : Evaluation β} {f : β → Evaluation γ} (he : Evolves bot e)
    (hf : ∀ b, Evolves bot (f b)) : Evolves bot (e >>= f) := by
  intro r
  have hfirst := he r
  -- what is done second is left out if the first is given up
  have hrun : (ExceptT.run (e >>= f)).run r =
      match (ExceptT.run e).run r with
      | (.ok b, r') => (ExceptT.run (f b)).run r'
      | (.error cause, r') => (.error cause, r') := by
    rw [ExceptT.run_bind, StateT.run_bind]
    obtain ⟨result, r'⟩ := (ExceptT.run e).run r
    cases result <;> rfl
  rw [hrun]
  cases hresult : (ExceptT.run e).run r with
  | mk result r' =>
    rw [hresult] at hfirst
    cases result with
    | ok b => exact hfirst.trans (hf b r')
    | error cause => exact hfirst

/-- What a session does in an evaluation are its steps. -/
theorem evolves_session {s : Session β} (hs : Session.Evolves bot s) :
    Evolves bot (session s) := fun r =>
  hs r.world

/-- A change of the state counts by what it does to the world. -/
theorem evolves_modify {f : Run → Run} (hf : ∀ r, World.Evolves bot r.world (f r).world) :
    Evolves bot (modify f : Evaluation Unit) := fun r =>
  hf r

end Evaluation

namespace Frame

variable {f : Frame}

/-- If it is too late, that is reported before the evaluation is given up. -/
theorem evolves_checkTime : Evaluation.Evolves f.bot f.checkTime := by
  refine Evaluation.evolves_get.bind fun r => ?_
  dsimp only
  split
  · exact (Evaluation.evolves_session (Session.evolves_report _)).bind fun _ =>
      Evaluation.evolves_throw _
  · exact Evaluation.evolves_pure _

/-- A loop may go on, or the limit that it has reached is reported. -/
theorem evolves_checkLoop (round : Nat) : Evaluation.Evolves f.bot (f.checkLoop round) := by
  unfold checkLoop
  split
  · refine Evaluation.evolves_get.bind fun r => ?_
    refine (Evaluation.evolves_session (Session.evolves_report _)).bind fun _ => ?_
    exact (Evaluation.evolves_throw _).bind fun _ => evolves_checkTime
  · exact (Evaluation.evolves_pure ()).bind fun _ => evolves_checkTime

/-- A sub-request evolves the world if its answer does. -/
theorem evolves_request {answer : Answerer} (hanswer : ∀ text, Session.Evolves f.bot (answer text))
    (text : String) : Evaluation.Evolves f.bot (f.request answer text) := by
  refine evolves_checkTime.bind fun _ => ?_
  refine (Evaluation.evolves_session (Session.evolves_report _)).bind fun _ => ?_
  refine (Evaluation.evolves_session (hanswer text)).bind fun result => ?_
  cases result with
  | ok output => exact Evaluation.evolves_pure output
  | error cause => exact Evaluation.evolves_throw cause

/-- Looking a variable up changes nothing. -/
theorem evolves_lookup (name : String) (scope : Scope) :
    Evaluation.Evolves f.bot (f.lookup name scope) := by
  cases scope <;> exact Evaluation.evolves_get.bind fun _ => Evaluation.evolves_pure _

/-- Only predicates are in the world; variables go with the evaluation. -/
theorem evolves_assign (name value : String) (scope : Scope) :
    Evaluation.Evolves f.bot (f.assign name value scope) := by
  cases scope with
  | «variable» =>
    -- the variables of a template are no part of the world
    exact Evaluation.evolves_modify fun _ => .refl
  | predicate =>
    exact Evaluation.evolves_modify fun r => .single (.setPredicate r.world name value)

/-- What a script learns goes to the bot or to the user. -/
theorem evolves_learn (learner : Learner) (markup : CategoryMarkup) :
    Evaluation.Evolves f.bot (f.learn learner markup) := by
  unfold learn
  split
  · exact Evaluation.evolves_pure _
  · next c _ =>
    cases learner with
    | user =>
      exact (Evaluation.evolves_session (Bot.evolves_learnOwn c)).bind fun _ =>
        Evaluation.evolves_pure _
    | everyone =>
      exact (Evaluation.evolves_session (Bot.evolves_learnShared c)).bind fun _ =>
        Evaluation.evolves_pure _

end Frame

/-- A script evolves the world, whatever the host has written, if its sub-requests and the content
of its element do. -/
theorem Script.evolves_run {f : Frame} {answer : Answerer} {content : Evaluation String}
    (hanswer : ∀ text, Session.Evolves f.bot (answer text))
    (hcontent : Evaluation.Evolves f.bot content) (script : Script) :
    Evaluation.Evolves f.bot (script.run f answer content) := by
  -- induction on the script, which goes on with what each of its commands gives back
  induction script with
  | done text => exact Evaluation.evolves_pure text
  | abort cause => exact Evaluation.evolves_throw cause
  | content next ih => exact hcontent.bind ih
  | look next ih => exact Evaluation.evolves_get.bind fun r => ih (f.view r)
  | loop round next ih => exact (Frame.evolves_checkLoop round).bind fun _ => ih
  | request text next ih => exact (Frame.evolves_request hanswer text).bind ih
  | assign name scope value next ih =>
    exact (Frame.evolves_assign name value scope).bind fun _ => ih
  | learn learner markup next ih =>
    exact (Frame.evolves_learn learner markup).bind ih
  | wait time next ih =>
    refine Evaluation.Evolves.bind (Evaluation.evolves_modify fun r => ?_) fun _ => ih
    exact .single (.wait r.world time)

mutual

/-- One part of a template evolves the world if its sub-requests do. -/
theorem Part.evolves_evaluate {f : Frame} {answer : Answerer}
    (hanswer : ∀ text, Session.Evolves f.bot (answer text)) (part : Part) :
    Evaluation.Evolves f.bot (part.evaluate f answer) := by
  cases part with
  | text s => exact Evaluation.evolves_pure s
  | star segment index => exact Evaluation.evolves_pure _
  | srai content =>
    exact (Part.evolves_evaluateAll hanswer content).bind fun _ =>
      Frame.evolves_request hanswer _
  | get name scope => exact Frame.evolves_lookup name scope
  | set name scope content =>
    refine (Part.evolves_evaluateAll hanswer content).bind fun _ => ?_
    exact (Frame.evolves_assign name _ scope).bind fun _ => Evaluation.evolves_pure _
  | think content =>
    exact (Part.evolves_evaluateAll hanswer content).bind fun _ => Evaluation.evolves_pure ""
  | extension name attributes content =>
    rw [Part.evaluate]
    split
    · exact Script.evolves_run hanswer (Part.evolves_evaluateAll hanswer content) _
    · exact Part.evolves_evaluateAll hanswer content

/-- A template evolves the world if its sub-requests do. -/
theorem Part.evolves_evaluateAll {f : Frame} {answer : Answerer}
    (hanswer : ∀ text, Session.Evolves f.bot (answer text)) (parts : List Part) :
    Evaluation.Evolves f.bot (Part.evaluateAll f answer parts) := by
  cases parts with
  | nil => exact Evaluation.evolves_pure ""
  | cons part rest =>
    refine (Part.evolves_evaluate hanswer part).bind fun _ => ?_
    exact (Part.evolves_evaluateAll hanswer rest).bind fun _ => Evaluation.evolves_pure _

end

/-! ## Answers -/

/-- Sentence by sentence, up to the first that is given up. -/
theorem evolves_answerAll {bot : Bot} {answer : String → Session Answer}
    (hanswer : ∀ sentence, Session.Evolves bot (answer sentence)) (sentences : List String) :
    Session.Evolves bot (answerAll answer sentences) := by
  induction sentences with
  | nil => exact Session.evolves_pure _
  | cons sentence rest ih =>
    refine (hanswer sentence).bind ?_
    intro a
    -- after a sentence that is given up, the others are not answered
    cases a.result with
    | error cause => exact Session.evolves_pure _
    | ok output => exact ih.bind fun _ => Session.evolves_pure _

namespace Bot

variable {bot : Bot}

/-- Answering a sentence evolves the world, at every depth. -/
theorem evolves_answer (depth deadline : Nat) (sentence : String) :
    Session.Evolves bot (bot.answer depth deadline sentence) := by
  -- induction on the levels that are left; a search that is not given up has one left
  induction hlevels : bot.config.recursionLimit + 1 - depth using Nat.strongRecOn
    generalizing depth sentence with
  | _ levels ih =>
    subst hlevels
    rw [answer]
    refine (evolves_normalize sentence).bind fun sentence => ?_
    refine (evolves_contextOf sentence).bind fun input => Session.evolves_get.bind fun w => ?_
    dsimp only
    split
    · exact (Session.evolves_reportAll _).bind fun _ => Session.evolves_pure _
    · refine (Session.evolves_reportAll _).bind fun _ => ?_
      exact (Session.evolves_report _).bind fun _ => Session.evolves_pure _
    · next events found h =>
      refine (Session.evolves_reportAll _).bind fun _ => ?_
      refine (Session.evolves_report _).bind fun _ => Session.evolves_get_bind fun w' => ?_
      -- the search was not nested too deep, so that its sub-requests have fewer levels left
      have hdepth : depth ≤ bot.config.recursionLimit :=
        @depth_le_of_search_eq_ok _ (bot.searchOptions depth deadline w.clock) _ _ _
          (congrArg SearchResult.result h)
      have hrequests : ∀ text, Session.Evolves bot (do
          return (← answerAll (bot.answer (depth + 1) deadline)
            (bot.config.splitSentences false text)).map joinOutputs) := by
        intro text
        refine (evolves_answerAll (fun sentence => ?_) _).bind fun _ => Session.evolves_pure _
        exact ih _ (by omega) (depth + 1) sentence rfl
      let frame : Frame :=
        { bot, sentence, depth, deadline, captures := found.captures, path := found.path
          template := found.entry }
      exact Part.evolves_evaluateAll (f := frame) hrequests found.entry.content { world := w' }

/-- All sentences of a request. -/
theorem evolves_answersTo (text : String) : Session.Evolves bot (bot.answersTo text) :=
  Session.evolves_mapM (fun sentence =>
    Session.evolves_get.bind fun w => evolves_answer 0 (w.clock + bot.config.timeout) sentence) _

/-- Recording a reply evolves the world up to the user, who gets the reply in the end. -/
theorem user_run_recordReply (reply : Reply) (w : World) :
    ∃ w', World.Evolves bot w w' ∧
      ((bot.recordReply reply).run w).2.user = w'.user.addReply bot.config reply := by
  unfold recordReply
  split
  · exact ⟨w, .refl, rfl⟩
  · exact ⟨_, evolves_normalize "" w, rfl⟩

/-- The world in which the sentences of a request are answered. -/
def requested (text : String) (w : World) : World :=
  { w with user := w.user.addRequest text, log := .chatRequest w.user.id text :: w.log }

/-- A request is recorded, its sentences are answered, and the reply is reported and recorded. -/
theorem run_chat (text : String) (w : World) :
    (bot.chat text).run w =
      let answers := (bot.answersTo text).run (requested text w)
      let reply := bot.replyOf answers.1
      (reply,
        ((bot.recordReply reply).run
          ((Session.report (.chatResponse w.user.id reply.text)).run answers.2).2).2) := by
  rw [chat]
  generalize bot.answersTo text = session
  generalize bot.recordReply = record
  rfl

/-- What a request does to the user: it is recorded, the world evolves while its sentences are
answered, and the reply is recorded. -/
theorem user_run_chat (text : String) (w : World) :
    ∃ w', World.Evolves bot { w with user := w.user.addRequest text } w' ∧
      ((bot.chat text).run w).2.user = w'.user.addReply bot.config ((bot.chat text).run w).1 := by
  have hevolves := @evolves_answersTo bot text (requested text w)
  rw [run_chat]
  generalize (bot.answersTo text).run (requested text w) = result at hevolves ⊢
  obtain ⟨answers, w₁⟩ := result
  let w₂ := ((Session.report (.chatResponse w.user.id (bot.replyOf answers).text)).run w₁).2
  have hresponse : World.Evolves bot w₁ w₂ := Session.evolves_report _ w₁
  -- the request is reported before it is recorded; the order of the two does not matter
  have hreport : World.Evolves bot { w with user := w.user.addRequest text } (requested text w) :=
    .single (.report _ [.chatRequest w.user.id text])
  obtain ⟨w', hw', huser⟩ := user_run_recordReply (bot.replyOf answers) w₂
  refine ⟨w', hreport.trans (hevolves.trans (hresponse.trans hw')), ?_⟩
  rw [huser]

end Bot

end Parley
