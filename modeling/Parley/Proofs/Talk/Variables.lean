import Parley.Proofs.Talk.Journal
import Parley.Proofs.Talk.Keeping

/-!
# Variables of a sentence

In an evaluation, the table of its variables holds what the journal says was assigned last in the
same evaluation. Sub-requests only write about evaluations that begin after them, so they leave this
as it is; and the journal changes neither the replies nor the worlds.

Main results:

* `Tracks` — a journal tells what the variables of an evaluation hold;
* `Bot.journaled_answer` — a sentence adds acts that fit, of evaluations that begin from then on;
* `Part.evaluateAll_fillAll` — captures may be put in place before anything is evaluated;
* `Bot.chats_scope_variables` — what variables and captures are, over all requests.
-/

namespace Parley

open Text

/-! ## Templates and scripts -/

/-- Whether a journal tells what the variables of the evaluation hold that began behind `start`. -/
structure Tracks (config : Config) (start : List Act) (r : Run) (acts : List Act) : Prop where
  since : Since config start acts
  begun : Begun acts start.length
  holds : Entries.Holds config.comparer r.locals (assignedIn start.length acts)

namespace Tracks

variable {config : Config} {start acts others : List Act} {r r' : Run}

/-- What is written by others does not matter to the variables. -/
theorem continues (h : Tracks config start r acts) (hlocals : r'.locals = r.locals)
    (hsince : Since config acts others) : Tracks config start r' others where
  since := h.since.trans hsince
  begun := hsince.begun h.begun
  holds := by
    rw [hlocals, hsince.assignedIn_eq h.begun]
    exact h.holds

/-- Only the variables of the evaluation count, and not the rest of its state. -/
theorem of_locals_eq (h : Tracks config start r acts) (hlocals : r'.locals = r.locals) :
    Tracks config start r' acts :=
  h.continues hlocals (.refl h.since.fitting)

/-- An assignment is one more act of the journal and one more entry of the variables. -/
theorem assign (h : Tracks config start r acts) (name value : String) :
    Tracks config start
      { r with locals := r.locals.assign (config.comparer.key name) value }
      (acts ++ [⟨start.length, .assigns name value⟩]) where
  since := h.since.concat (.assigns name value h.begun) (Nat.le_refl _)
  begun := h.begun.append _
  holds := by
    have hone : assignedIn start.length [⟨start.length, .assigns name value⟩] =
        [(name, value)] := by
      simp [assignedIn, Act.assigned?]
    rw [assignedIn_append, hone]
    exact h.holds.assign name value

/-- A variable has the value that the journal says it was given last. -/
theorem lookUp (h : Tracks config start r acts) (name : String) :
    Tracks config start r (acts ++ [⟨start.length, .looksUp name
      ((config.comparer.lookup r.locals name).getD config.defaultPredicate)⟩]) where
  since := by
    rw [h.holds.lookup_eq]
    exact h.since.concat (.looksUp name h.begun) (Nat.le_refl _)
  begun := h.begun.append _
  holds := by
    have hnone : ∀ value, assignedIn start.length [⟨start.length, .looksUp name value⟩] = [] :=
      fun _ => rfl
    rw [assignedIn_append, hnone, List.append_nil]
    exact h.holds

end Tracks

/-- Whether an evaluation leaves the variables alone, whatever they are. -/
def Evaluation.KeepsVariables {α : Type} (x : Evaluation α) : Prop :=
  ∀ locals, (Simulation.preservation fun r : Run => r.locals = locals).rel x x

namespace Evaluation.KeepsVariables

variable {α β : Type} {x : Evaluation α} {g : α → Evaluation β}

/-- One evaluation after the other. -/
theorem bind (hx : x.KeepsVariables) (hg : ∀ a, (g a).KeepsVariables) :
    (x >>= g).KeepsVariables :=
  fun locals => (Simulation.preservation _).rel_bind (hx locals) fun a => hg a locals

/-- A result leaves the variables alone. -/
theorem of_pure (a : α) : (pure a : Evaluation α).KeepsVariables := fun _ _ h => h

/-- To give up leaves the variables alone. -/
theorem of_throw (cause : Abort) : (throw cause : Evaluation α).KeepsVariables := fun _ _ h => h

/-- To look at the state leaves the variables alone. -/
theorem of_get : (get : Evaluation Run).KeepsVariables := fun _ _ h => h

/-- A session does not see the variables. -/
theorem of_session (s : Session α) : (Evaluation.session s).KeepsVariables := fun _ _ h => h

end Evaluation.KeepsVariables

namespace Frame

/-- The clock is none of the variables. -/
theorem keepsVariables_checkTime (f : Frame) : f.checkTime.KeepsVariables := by
  intro locals r h
  rw [run_checkTime]
  split
  · exact h
  · exact h

/-- A round of a loop may be reported before it is given up, and so may the end of the time. -/
theorem keepsVariables_checkLoop (f : Frame) (round : Nat) :
    (f.checkLoop round).KeepsVariables := by
  unfold checkLoop
  split
  · refine .bind .of_get fun r => .bind (.of_session _) fun _ => ?_
    exact .bind (.of_throw _) fun _ => f.keepsVariables_checkTime
  · exact f.keepsVariables_checkTime

/-- What is learned goes to the bot or to the user. -/
theorem keepsVariables_learn (f : Frame) (learner : Learner) (markup : CategoryMarkup) :
    (f.learn learner markup).KeepsVariables := by
  unfold learn
  split
  · exact .of_pure _
  · cases learner with
    | user => exact .bind (.of_session _) fun _ => .of_pure _
    | everyone => exact .bind (.of_session _) fun _ => .of_pure _

end Frame

/-- The simulation for what is done in the evaluation that begins behind `start`. -/
abbrev Simulation.tracking (config : Config) (start : List Act) :
    Simulation Evaluation (ExceptT Abort (Journaling Run)) :=
  (Simulation.journaling (Tracks config start)).exceptT

namespace Frame

variable {f : Frame} {start : List Act} {ask : Answerer}
  {ask' : String → Journaling World (Except Abort String)} {α : Type} {x : Evaluation α}

/-- An evaluation that leaves the variables alone is no act of the journal. -/
theorem tracking_trying (f : Frame) (hkeeps : x.KeepsVariables) :
    (Simulation.tracking f.bot.config start).rel x (Journaling.trying x) :=
  fun r acts h => ⟨acts, rfl, h.of_locals_eq (hkeeps r.locals r rfl)⟩

/-- A look-up finds what the journal says was assigned last. -/
theorem tracking_lookup (name : String) (scope : Scope) :
    (Simulation.tracking f.bot.config start).rel (f.lookup name scope)
      (f.journalLookup start.length name scope) := by
  cases scope with
  | «variable» =>
    -- what is written down is the value that the table has
    exact fun r acts h => ⟨_, rfl, h.lookUp name⟩
  | predicate => exact f.tracking_trying fun _ _ h => h

/-- What is assigned is written down. -/
theorem tracking_assign (name value : String) (scope : Scope) :
    (Simulation.tracking f.bot.config start).rel (f.assign name value scope)
      (f.journalAssign start.length name value scope) := by
  cases scope with
  | «variable» => exact fun r acts h => ⟨_, rfl, h.assign name value⟩
  | predicate => exact f.tracking_trying fun _ _ h => h

/-- The answer to a sub-request is taken over, and leaves the variables alone. -/
theorem tracking_answered (hask : RequestsJournaled f.bot.config ask ask') (text : String) :
    (Simulation.tracking f.bot.config start).rel
      (do
        match ← Evaluation.session (ask text) with
        | .ok output => return output
        | .error cause => throw cause)
      (Journaling.answered (ask' text)) := by
  intro r acts h
  obtain ⟨acts', hrun, hsince⟩ := hask text acts r.world acts (.refl h.since.fitting)
  have hanswered : (ExceptT.run (Journaling.answered (ask' text))).run (r, acts) =
      let done := (ask' text).run (r.world, acts)
      (done.1, { r with world := done.2.1 }, done.2.2) := rfl
  rw [hanswered, hrun, run_bind_eq, Evaluation.run_session]
  dsimp only
  -- the answer is taken apart and put together again, whether it was given up or not
  cases ((ask text).run r.world).1 with
  | ok output => exact ⟨acts', rfl, h.continues rfl hsince⟩
  | error cause => exact ⟨acts', rfl, h.continues rfl hsince⟩

/-- A sub-request begins journals of its own, which are part of the one here. -/
theorem tracking_request (hask : RequestsJournaled f.bot.config ask ask') (text : String) :
    (Simulation.tracking f.bot.config start).rel (f.request ask text)
      (f.journalRequest ask' text) := by
  let S := Simulation.tracking f.bot.config start
  refine S.rel_bind (f.tracking_trying f.keepsVariables_checkTime) fun _ => ?_
  refine S.rel_bind (f.tracking_trying (.of_session _)) fun _ => ?_
  exact tracking_answered hask text

/-- The commands that the host has keep the journal. -/
theorem tracking_hostCommands (hask : RequestsJournaled f.bot.config ask ask') :
    (Simulation.tracking f.bot.config start).RelHostCommands (f.hostCommands ask)
      (f.journalHostCommands start.length ask') where
  abort _ := fun _ acts h => ⟨acts, rfl, h⟩
  look := f.tracking_trying fun _ _ h => h
  beginRound round := f.tracking_trying (f.keepsVariables_checkLoop round)
  request := tracking_request hask
  assign := tracking_assign
  learn learner markup :=
    f.tracking_trying (f.keepsVariables_learn learner markup)
  wait _ := f.tracking_trying fun _ _ h => h

/-- All commands of a template keep the journal. -/
theorem tracking_commands (hask : RequestsJournaled f.bot.config ask ask') :
    (Simulation.tracking f.bot.config start).RelCommands (f.commands ask)
      (f.journalCommands start.length ask') where
  star := rfl
  lookup := tracking_lookup
  assign := tracking_assign
  request := tracking_request hask

/-- Elements of the host are no exception, whatever their scripts are. -/
theorem tracking_host (hask : RequestsJournaled f.bot.config ask ask') :
    (Simulation.tracking f.bot.config start).RelHost (f.commands ask)
      (f.journalCommands start.length ask') := by
  intro element x y hcontent
  unfold commands journalCommands
  dsimp only
  cases f.bot.registry.get? element.name with
  | none => exact hcontent
  | some known =>
    dsimp only
    rw [Script.run_eq_interpret]
    exact Simulation.script (tracking_hostCommands hask) hcontent _

end Frame

/-! ## Sub-requests, sentences and requests -/

namespace Bot

variable {bot : Bot} {depth deadline : Nat}

/-- A journal is kept of a sub-request if it is kept of its sentences. -/
theorem journaled_subRequest {answer : String → Journaling World Answer}
    (hanswer : ∀ raw, Journaled bot.config (bot.answer depth deadline raw) (answer raw)) :
    RequestsJournaled bot.config (bot.subRequest depth deadline)
      (bot.journalSubRequest answer) := by
  intro text start
  let S := (Simulation.journaling fun (_ : World) acts => Since bot.config start acts).exceptT
  have hsentences : S.rel
      ((bot.config.splitSentences false text).mapM fun s =>
        responding (bot.answer depth deadline s))
      ((bot.config.splitSentences false text).mapM fun s =>
        ExceptT.mk (Answer.result <$> answer s)) := by
    -- each sentence has scopes of its own, and what it sets in the user's is in the journal
    refine Simulation.mapM (fun raw => ?_) _
    intro w acts h
    obtain ⟨acts', hrun, h'⟩ := hanswer raw start w acts h
    refine ⟨acts', ?_, h'⟩
    have hresult : (ExceptT.run (ExceptT.mk (Answer.result <$> answer raw))).run (w, acts) =
        let done := (answer raw).run (w, acts)
        (done.1.result, done.2) := rfl
    rw [run_responding, hresult, hrun]
  intro w acts h
  rw [run_subRequest]
  exact S.rel_bind hsentences (fun outputs => S.rel_pure (joinOutputs outputs)) w acts h

/-- When an evaluation begins, none of its variables was given a value. -/
theorem tracks_begins {config : Config} {acts : List Act} (hfitting : Fitting config acts)
    (depth : Nat) (sentence : String) (w : World) :
    Tracks config acts { world := w } (acts ++ [⟨acts.length, .begins depth sentence⟩]) where
  since := (Since.refl hfitting).concat (.begins depth sentence) (Nat.le_refl _)
  begun := ⟨depth, sentence, by simp⟩
  holds := by
    have hbefore : assignedIn acts.length acts = [] :=
      assignedIn_eq_nil fun a ha => Nat.ne_of_lt (hfitting.evaluation_lt ha)
    have hbegins : assignedIn acts.length [⟨acts.length, .begins depth sentence⟩] = [] := rfl
    rw [assignedIn_append, hbefore, hbegins]
    exact .nil config.comparer

/-- **A sentence adds acts that fit,** of evaluations that begin from then on, at every depth. -/
theorem journaled_answer (depth deadline : Nat) (raw : String) :
    Journaled bot.config (bot.answer depth deadline raw)
      (bot.journalAnswer depth deadline raw) := by
  -- induction on the levels that are left; a search that is not given up has one left
  induction hlevels : bot.config.recursionLimit + 1 - depth using Nat.strongRecOn
    generalizing depth raw with
  | _ levels ih =>
    subst hlevels
    intro start w acts h
    rw [run_answer]
    show ∃ acts', bot.journalAnswer depth deadline raw (w, acts) = _ ∧ _
    rw [journalAnswer]
    generalize bot.config.normalize raw = sentence
    dsimp only
    split
    · next cause hsearch =>
      rw [hsearch]
      exact ⟨acts, rfl, h⟩
    · next hsearch =>
      rw [hsearch]
      exact ⟨acts, rfl, h⟩
    · next found hsearch =>
      rw [hsearch]
      dsimp only
      -- the search was not nested too deep, so that its sub-requests have fewer levels left
      have hdepth := depth_le_of_searchAt hsearch
      have hask : RequestsJournaled bot.config (bot.subRequest (depth + 1) deadline)
          (bot.journalSubRequest (bot.journalAnswer (depth + 1) deadline)) :=
        journaled_subRequest fun raw => ih _ (by omega) (depth + 1) raw rfl
      -- the evaluation that begins here is told from others by the acts before it
      let f := bot.frameOf depth deadline sentence found
      have hevaluating : (Simulation.tracking bot.config acts).rel
          (bot.evaluating depth deadline sentence found)
          (Part.interpretAll (f.journalCommands acts.length
            (bot.journalSubRequest (bot.journalAnswer (depth + 1) deadline)))
            found.entry.content) :=
        Simulation.interpretAll (Frame.tracking_commands (f := f) hask) found.entry.content
          (Or.inr (Frame.tracking_host (f := f) hask))
      obtain ⟨acts', hrun, htracks⟩ :=
        hevaluating _ _ (tracks_begins h.fitting depth sentence _)
      rw [hrun]
      exact ⟨acts', rfl, h.trans htracks.since⟩

/-- A sentence of the user, with its own deadline. -/
theorem journaled_answerTop (raw : String) :
    Journaled bot.config (bot.answerTop raw) (bot.journalAnswerTop raw) := by
  intro start
  refine (Simulation.journaling _).rel_bind (journaled_doing bot.config get start) fun w => ?_
  exact bot.journaled_answer 0 _ raw start

/-- A journal is kept of a request and of the recording of it and of its reply. -/
theorem journaled_chat (bot : Bot) (text : String) :
    Journaled bot.config (bot.chat text) (bot.journalChat text) := by
  intro start
  let S := Simulation.journaling fun (_ : World) acts => Since bot.config start acts
  have hdoing : ∀ {α : Type} (x : Session α), S.rel x (Journaling.doing x) :=
    fun x => journaled_doing bot.config x start
  refine S.rel_bind (hdoing get) fun w => ?_
  refine S.rel_bind (hdoing _) fun _ => S.rel_bind (hdoing _) fun _ => ?_
  refine S.rel_bind (Simulation.mapM (fun raw => bot.journaled_answerTop raw start) _) ?_
  intro answers
  refine S.rel_bind (hdoing _) fun _ => S.rel_bind (hdoing _) fun _ => ?_
  exact S.rel_pure _

end Bot

/-! ## Captures -/

mutual

/-- A part with what was captured in place of its stars. What is inside elements of the host stays
as it is, because they get it as it was read. -/
def Part.fill (star : Segment → Nat → String) : Part → Part
  | .text s => .text s
  | .star segment index => .text (star segment index)
  | .srai content => .srai (Part.fillAll star content)
  | .get name scope => .get name scope
  | .set name scope content => .set name scope (Part.fillAll star content)
  | .think content => .think (Part.fillAll star content)
  | .extension name attributes content => .extension name attributes content

/-- Parts with what was captured in place of their stars. -/
def Part.fillAll (star : Segment → Nat → String) : List Part → List Part
  | [] => []
  | part :: rest => part.fill star :: Part.fillAll star rest

end

section Captures

variable (f : Frame) (ask : Answerer) (captures : Captures)

mutual

/-- A part whose stars were filled in gives what the part gives. -/
theorem Part.evaluate_fill (part : Part) (h : part.isBuiltIn = true) :
    (part.fill f.star).evaluate { f with captures } ask = part.evaluate f ask := by
  cases part with
  | text s => rfl
  | star segment index => rfl
  | srai content =>
    rw [Part.fill, Part.evaluate, Part.evaluate, Part.evaluateAll_fillAll content h]
    rfl
  | get name scope =>
    -- a look-up does not see the captures
    cases scope <;> rfl
  | set name scope content =>
    rw [Part.fill, Part.evaluate, Part.evaluate, Part.evaluateAll_fillAll content h]
    cases scope <;> rfl
  | think content =>
    rw [Part.fill, Part.evaluate, Part.evaluate, Part.evaluateAll_fillAll content h]
  | extension name attributes content => cases h

/-- **Captures may be put in place before anything is evaluated:** whatever the captures are then,
with all sub-requests in between, they make no difference. -/
theorem Part.evaluateAll_fillAll (parts : List Part) (h : Part.areBuiltIn parts = true) :
    Part.evaluateAll { f with captures } ask (Part.fillAll f.star parts) =
      Part.evaluateAll f ask parts := by
  cases parts with
  | nil => rfl
  | cons part rest =>
    rw [Part.areBuiltIn, Bool.and_eq_true] at h
    rw [Part.fillAll, Part.evaluateAll, Part.evaluateAll, Part.evaluate_fill part h.1,
      Part.evaluateAll_fillAll rest h.2]

end

end Captures

/-! ## Over all requests -/

namespace Bot

/-- **Variables belong to the evaluation of a sentence.** Requests have the replies and lead to the
world that they have without a journal. In the journal, every act is of an evaluation that has begun
before, or begins it; and a variable that is looked up has the value that was assigned to it last,
earlier in the same evaluation and under some spelling of its name, or the default if there is none.
So neither other names nor other sentences nor sub-requests have a say in it. The captures of a
template that is built in are those that the evaluation began with, from its first part to its
last. -/
theorem chats_scope_variables (bot : Bot) (texts : List String) (w : World) :
    let told := (texts.mapM bot.journalChat).run (w, [])
    let acts := told.2.2
    (told.1, told.2.1) = (texts.mapM bot.chat).run w ∧
      (∀ before evaluation kind after, acts = before ++ ⟨evaluation, kind⟩ :: after →
        Begun before evaluation ∨
          evaluation = before.length ∧ ∃ depth sentence, kind = .begins depth sentence) ∧
      (∀ before evaluation name value after,
        acts = before ++ ⟨evaluation, .looksUp name value⟩ :: after →
          value = (bot.config.comparer.latest? (assignedIn evaluation before) name).getD
            bot.config.defaultPredicate) ∧
      ∀ (f : Frame) (ask : Answerer) (captures : Captures) (parts : List Part),
        Part.areBuiltIn parts = true →
          Part.evaluateAll { f with captures } ask (Part.fillAll f.star parts) =
            Part.evaluateAll f ask parts := by
  intro told acts
  -- one request after the other, from an empty journal on
  have hjournaled : Journaled bot.config (texts.mapM bot.chat) (texts.mapM bot.journalChat) :=
    fun start => Simulation.mapM (fun text => bot.journaled_chat text start) texts
  obtain ⟨acts', hrun, hsince⟩ := hjournaled [] w [] (.refl (fitting_nil bot.config))
  have htold : told = (((texts.mapM bot.chat).run w).1, ((texts.mapM bot.chat).run w).2, acts') :=
    hrun
  have hacts : acts = acts' := congrArg (fun t => t.2.2) htold
  have hfitting : Fitting bot.config acts := hacts ▸ hsince.fitting
  refine ⟨?_, ?_, ?_, fun f ask captures parts => Part.evaluateAll_fillAll f ask captures parts⟩
  · rw [htold]
    rfl
  · intro before evaluation kind after h
    cases hfitting before _ after h with
    | begins depth sentence => exact Or.inr ⟨rfl, depth, sentence, rfl⟩
    | assigns name value hbegun => exact Or.inl hbegun
    | looksUp name hbegun => exact Or.inl hbegun
  · intro before evaluation name value after h
    cases hfitting before _ after h with
    | looksUp name hbegun => rfl

end Bot

namespace Samples

/-- A world in which a bot asks itself for a mood that it has just set for itself. -/
def moody : World :=
  let categories : List (List Token × Template) :=
    [(compilePath bot.config [.word "I", .word "AM", .word "*"] none none none,
        { content :=
            [.think [.set "Mood" .variable [.star .message 1]], .srai [.text "mood"], .text ", ",
              .get "MOOD" .variable] }),
      (compilePath bot.config [.word "MOOD"] none none none,
        { content := [.get "mood" .variable, .think [.set "mood" .variable [.text "bad"]]] })]
  { knowledge := { graph := .insertAll .ignoreCase categories, size := 2 }, reported := false
    user := .new bot.config "user", clock := 0, log := [] }

end Samples

/-- A sub-request sees no mood of the sentence it is asked in, and sets none there. -/
example :
    let told := (Samples.bot.journalChat "I am glad.").run (Samples.moody, [])
    told.1.text = "unknown, glad" ∧
      told.2.2 =
        [⟨0, .begins 0 "I am glad"⟩, ⟨0, .assigns "Mood" "glad"⟩, ⟨2, .begins 1 "mood"⟩,
          ⟨2, .looksUp "mood" "unknown"⟩, ⟨2, .assigns "mood" "bad"⟩,
          ⟨0, .looksUp "MOOD" "glad"⟩] := by
  decide +kernel

end Parley
