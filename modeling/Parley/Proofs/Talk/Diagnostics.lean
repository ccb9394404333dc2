import Parley.Proofs.Search.Diagnostics
import Parley.Proofs.Search.Reports
import Parley.Proofs.Talk.Course

/-!
# Conversations and their diagnostics

A bot with trace switches reports more than a bot without, and this is all that the switches do.
Whoever leaves the diagnostic events out of its log has the conversation that the bot with all
switches off has: the same replies, the same knowledge, the same user, the same time, and the same
log. Elements of the host are shown the switches together with the rest of the configuration, so
that they must not go by them either.

Main results:

* `Script.interpret_shown` — to show a script other switches is to interpret it with them;
* `Bot.quieting_answer` — an answer without its diagnostics, at every depth;
* `Bot.quieting_chat` — a request without its diagnostics;
* `trace_only_reports` — two settings of the switches, for searches and for requests.
-/

namespace Parley

open Text

/-! ## Scripts and the switches -/

/-- The same view with other trace switches. -/
def View.withTrace (v : View) (trace : Trace) : View :=
  { v with config := { v.config with trace } }

/-- The same commands, with the given switches in what is seen. -/
def HostCommands.showing {m : Type → Type} [Monad m] (c : HostCommands m) (trace : Trace) :
    HostCommands m :=
  { c with look := do return (← c.look).withTrace trace }

namespace Script

/-- What a script does if it is shown the given switches whenever it looks. -/
def shown (trace : Trace) : Script → Script
  | .done text => .done text
  | .abort cause => .abort cause
  | .content next => .content fun text => (next text).shown trace
  | .look next => .look fun v => (next (v.withTrace trace)).shown trace
  | .loop round next => .loop round (next.shown trace)
  | .request text next => .request text fun output => (next output).shown trace
  | .assign name scope value next => .assign name scope value (next.shown trace)
  | .learn learner markup next =>
    .learn learner markup fun existing? => (next existing?).shown trace
  | .wait time next => .wait time (next.shown trace)

/-- It does not matter whether the switches are put in place of others when a script looks or when
it is told what it sees. -/
theorem interpret_shown {m : Type → Type} [Monad m] [LawfulMonad m] (c : HostCommands m)
    (content : m String) (trace : Trace) (script : Script) :
    (script.shown trace).interpret c content = script.interpret (c.showing trace) content := by
  induction script with
  | done text => rfl
  | abort cause => rfl
  | content next ih => exact congrArg (content >>= ·) (funext ih)
  | look next ih =>
    show (c.look >>= fun v => ((next (v.withTrace trace)).shown trace).interpret c content) =
      (c.look >>= fun v => pure (v.withTrace trace)) >>= _
    simp only [bind_assoc, pure_bind, ih]
  | loop round next ih => exact congrArg (fun x => c.beginRound round >>= fun _ => x) ih
  | request text next ih => exact congrArg (c.request text >>= ·) (funext ih)
  | assign name scope value next ih =>
    exact congrArg (fun x => c.assign name value scope >>= fun _ => x) ih
  | learn learner markup next ih =>
    exact congrArg (c.learn learner markup >>= ·) (funext ih)
  | wait time next ih => exact congrArg (fun x => c.wait time >>= fun _ => x) ih

end Script

/-- Whether no element of a registry goes by the trace switches that it is shown. -/
def Registry.IgnoresTrace (registry : Registry) : Prop :=
  ∀ name extension, (name, extension) ∈ registry → ∀ element trace,
    (extension.script element).shown trace = extension.script element

/-! ## Worlds without diagnostics -/

/-- The same world without the diagnostics in its log. -/
def World.quiet (w : World) : World := { w with log := Event.remaining w.log }

/-- The same state of an evaluation without the diagnostics in the log. -/
def Run.quiet (r : Run) : Run := { r with world := r.world.quiet }

/-- An event that is no diagnostic is reported in the quiet world too. -/
theorem World.quiet_report {e : Event} (h : e.isDiagnostic = false) (w : World) :
    ((Session.report e).run w).2.quiet = ((Session.report e).run w.quiet).2 :=
  congrArg (fun log => { w with log }) (Event.remaining_cons h w.log)

/-- Of several events, those that are left are. -/
theorem World.quiet_reportAll (events : List Event) (w : World) :
    ((Session.reportAll events).run w).2.quiet =
      ((Session.reportAll (Event.remaining events)).run w.quiet).2 := by
  have hlog : Event.remaining (events.reverse ++ w.log) =
      (Event.remaining events).reverse ++ Event.remaining w.log := by
    rw [Event.remaining_append, Event.remaining_reverse]
  exact congrArg (fun log => { w with log }) hlog

/-- The substitutions report nothing diagnostic. -/
theorem Substitutions.remaining_events (list : Substitutions) :
    Event.remaining list.events = list.events := by
  refine List.filter_eq_self.2 fun e he => ?_
  rcases eq_of_mem_events he with ⟨pattern, rfl⟩ | rfl <;> rfl

/-- Two computations go side by side if the second one does with a part of the state what the first
one does with the state. -/
def Simulation.projection {σ τ : Type} (part : σ → τ) : Simulation (StateM σ) (StateM τ) where
  rel x y := ∀ s, y.run (part s) = ((x.run s).1, part (x.run s).2)
  rel_pure _ := fun _ => rfl
  rel_bind := by
    intro α β x y f g hxy hfg s
    rw [run_bind_state, run_bind_state, hxy]
    exact hfg (x.run s).1 (x.run s).2

/-- The simulation between sessions that are the same but for diagnostics. -/
abbrev Simulation.quieting : Simulation Session Session := .projection World.quiet

/-- The simulation between evaluations that are the same but for diagnostics. -/
abbrev Simulation.quietingRuns : Simulation Evaluation Evaluation :=
  (Simulation.projection Run.quiet).exceptT

/-! ## Bots and frames with all switches off -/

/-- The same bot with other trace switches. -/
def Bot.withTrace (bot : Bot) (trace : Trace) : Bot :=
  { bot with config := { bot.config with trace } }

/-- The same frame with the switches of its bot turned off. -/
def Frame.untraced (f : Frame) : Frame := { f with bot := f.bot.withTrace .none }

namespace Bot

variable (bot : Bot) {depth deadline : Nat}

/-- The faults of the substitutions are reported in both worlds, as they are no diagnostics. -/
theorem quiet_prepared (w : World) :
    (bot.prepared w).quiet = (bot.withTrace .none).prepared w.quiet := by
  have hcondition : (!w.quiet.reported && !(bot.withTrace .none).config.substitutions.items.isEmpty)
      = (!w.reported && !bot.config.substitutions.items.isEmpty) := rfl
  rw [prepared, prepared, hcondition]
  split
  · refine congrArg (fun log => ({ w with log, reported := true } : World)) ?_
    rw [Event.remaining_append, Event.remaining_reverse, Substitutions.remaining_events]
    rfl
  · rfl

/-- Normalizing gives the same text, quiet or not. -/
theorem quieting_normalize (text : String) :
    Simulation.quieting.rel (bot.normalize text) ((bot.withTrace .none).normalize text) := by
  intro w
  rw [run_normalize, run_normalize, quiet_prepared]
  rfl

/-- What is searched for does not depend on the log. -/
theorem inputAt_quiet (sentence : String) (w : World) :
    (bot.withTrace .none).inputAt sentence w.quiet = bot.inputAt sentence w := by
  rw [inputAt_eq, inputAt_eq]
  rfl

/-- The search for a sentence is the same but for its diagnostics. -/
theorem quiet_searchAt (sentence : String) (w : World) :
    (bot.searchAt depth deadline sentence w).quiet =
      (bot.withTrace .none).searchAt depth deadline sentence w.quiet := by
  rw [searchAt, searchAt, inputAt_quiet, Parley.quiet_search]
  rfl

/-- The world after a search, made quiet, is the one after the quiet search. -/
theorem quiet_searched (sentence : String) (w : World) :
    (bot.searched depth deadline sentence w).quiet =
      (bot.withTrace .none).searched depth deadline sentence w.quiet := by
  rw [searched, searched, World.quiet_reportAll, quiet_prepared, ← quiet_searchAt]
  rfl

/-! ## Learning -/

/-- An event that is no diagnostic keeps the two worlds together. -/
theorem quieting_report {e : Event} (h : e.isDiagnostic = false) :
    Simulation.quieting.rel (Session.report e) (Session.report e) :=
  fun w => congrArg (Prod.mk ()) (World.quiet_report h w).symm

/-- The two worlds learn the same category or report that its path is there already. -/
theorem quieting_addCategory (topicName? : Option String) (c : Category) :
    Simulation.quieting.rel (bot.addCategory topicName? c)
      ((bot.withTrace .none).addCategory topicName? c) := by
  intro w
  have hpath : c.path (bot.withTrace .none).config topicName? = c.path bot.config topicName? := rfl
  unfold addCategory
  dsimp only
  rw [run_get_bind, run_get_bind, hpath]
  have hknowledge : w.quiet.knowledge = w.knowledge := rfl
  rw [hknowledge]
  cases w.knowledge.add (c.path bot.config topicName?) c.template with
  | mk knowledge existing? =>
    cases existing? with
    | none => rfl
    | some existing =>
      have hreport := @World.quiet_report (.duplicateCategory
        (renderPath (c.path bot.config topicName?)) c.template.source? existing.source?) rfl
        { w with knowledge }
      exact congrArg (Prod.mk (some existing)) hreport.symm

/-- What the bot has learned is reported in both. -/
theorem quieting_learnShared (c : Category) :
    Simulation.quieting.rel (bot.learnShared c) ((bot.withTrace .none).learnShared c) := by
  refine Simulation.quieting.rel_bind (bot.quieting_addCategory none c) fun existing? => ?_
  cases existing? with
  | none =>
    exact Simulation.quieting.rel_bind (quieting_report rfl) fun _ => Simulation.quieting.rel_pure _
  | some existing => exact Simulation.quieting.rel_pure _

/-- The users learn the same in both. -/
theorem quieting_learnOwn (c : Category) :
    Simulation.quieting.rel (bot.learnOwn c) ((bot.withTrace .none).learnOwn c) := by
  intro w
  have hpath : c.path (bot.withTrace .none).config none = c.path bot.config none := rfl
  have huser : w.quiet.user = w.user := rfl
  unfold learnOwn
  dsimp only
  rw [run_get_bind, run_get_bind, hpath, huser]
  cases w.user.graph.insert (c.path bot.config none) c.template with
  | mk graph existing? =>
    cases existing? with
    | none =>
      have hreport := @World.quiet_report (.learnedByUser w.user.id) rfl
        { w with user := { w.user with graph } }
      exact congrArg (Prod.mk none) hreport.symm
    | some existing =>
      have hreport := @World.quiet_report (.duplicateLearned w.user.id
        (renderPath (c.path bot.config none)) existing.source?) rfl w
      exact congrArg (Prod.mk (some existing)) hreport.symm

end Bot

/-! ## Templates and scripts -/

namespace Frame

variable {f : Frame} {ask ask' : Answerer}

/-- What sessions do alike, they do alike in evaluations. -/
theorem quieting_session {α : Type} {s s' : Session α} (h : Simulation.quieting.rel s s') :
    Simulation.quietingRuns.rel (Evaluation.session s) (Evaluation.session s') := by
  intro r
  show (ExceptT.run (Evaluation.session s')).run r.quiet = _
  rw [Evaluation.run_session, Evaluation.run_session, Run.quiet, h]
  rfl

/-- The two clocks are the same. -/
theorem quieting_checkTime : Simulation.quietingRuns.rel f.checkTime f.untraced.checkTime := by
  intro r
  rw [run_checkTime, run_checkTime]
  have hup : f.untraced.deadline ≤ r.quiet.world.clock ↔ f.deadline ≤ r.world.clock := Iff.rfl
  by_cases h : f.deadline ≤ r.world.clock
  · rw [if_pos h, if_pos (hup.2 h)]
    have hreport := @World.quiet_report (.templateTimeout r.world.user.id f.sentence) rfl r.world
    exact congrArg (fun world => (Except.error Abort.timeout, { r with world })) hreport.symm
  · rw [if_neg h, if_neg (mt hup.1 h)]

/-- Loops are counted in the same way. -/
theorem quieting_checkLoop (round : Nat) :
    Simulation.quietingRuns.rel (f.checkLoop round) (f.untraced.checkLoop round) := by
  have hlimit : round > f.untraced.bot.config.loopLimit ↔ round > f.bot.config.loopLimit := Iff.rfl
  unfold checkLoop
  by_cases h : round > f.bot.config.loopLimit
  · rw [if_pos h, if_pos (hlimit.2 h)]
    -- the report is made, and nothing comes after it
    intro r
    have hreport := @World.quiet_report (.loopLimitExceeded r.world.user.id f.sentence) rfl r.world
    exact congrArg (fun world => (Except.error Abort.loopLimit, { r with world })) hreport.symm
  · rw [if_neg h, if_neg (mt hlimit.1 h)]
    exact quieting_checkTime

/-- A sub-request is asked alike, and its failure is passed on. -/
theorem quieting_request (hask : ∀ text, Simulation.quieting.rel (ask text) (ask' text))
    (text : String) :
    Simulation.quietingRuns.rel (f.request ask text) (f.untraced.request ask' text) := by
  let S := Simulation.quietingRuns
  refine S.rel_bind quieting_checkTime fun _ => ?_
  refine S.rel_bind (quieting_session (Bot.quieting_report rfl)) fun _ => ?_
  refine S.rel_bind (quieting_session (hask text)) fun result => ?_
  -- the failure of a sub-request is the failure of the evaluation
  cases result with
  | ok output => exact S.rel_pure output
  | error cause => exact fun _ => rfl

/-- Both look up the same predicates and variables. -/
theorem quieting_lookup (name : String) (scope : Scope) :
    Simulation.quietingRuns.rel (f.lookup name scope) (f.untraced.lookup name scope) := by
  cases scope <;> exact fun _ => rfl

/-- Both assign the same values. -/
theorem quieting_assign (name value : String) (scope : Scope) :
    Simulation.quietingRuns.rel (f.assign name value scope)
      (f.untraced.assign name value scope) := by
  cases scope <;> exact fun _ => rfl

/-- A category with an error in it is not learned in either. -/
theorem quieting_learn (learner : Learner) (markup : CategoryMarkup) :
    Simulation.quietingRuns.rel (f.learn learner markup)
      (f.untraced.learn learner markup) := by
  let S := Simulation.quietingRuns
  have hcategory : f.untraced.bot.readCategory markup = f.bot.readCategory markup := rfl
  unfold learn
  rw [hcategory]
  cases f.bot.readCategory markup with
  | error fault => exact S.rel_pure _
  | ok c =>
    cases learner with
    | user => exact S.rel_bind (quieting_session (f.bot.quieting_learnOwn c)) fun _ => S.rel_pure _
    | everyone =>
      exact S.rel_bind (quieting_session (f.bot.quieting_learnShared c)) fun _ => S.rel_pure _

/-- The host can do the same in both frames, if it is shown that all switches are off. -/
theorem quieting_hostCommands (hask : ∀ text, Simulation.quieting.rel (ask text) (ask' text)) :
    Simulation.quietingRuns.RelHostCommands ((f.hostCommands ask).showing .none)
      ((f.untraced.hostCommands ask').showing .none) where
  abort _ := fun _ => rfl
  look := fun _ => rfl
  beginRound := quieting_checkLoop
  request := quieting_request hask
  assign := quieting_assign
  learn := quieting_learn
  wait _ := fun _ => rfl

/-- All commands of a template at once, for the induction over its parts. -/
theorem quieting_commands (hask : ∀ text, Simulation.quieting.rel (ask text) (ask' text)) :
    Simulation.quietingRuns.RelCommands (f.commands ask) (f.untraced.commands ask') where
  star := by
    funext segment index
    cases index <;> rfl
  lookup := quieting_lookup
  assign := quieting_assign
  request := quieting_request hask

/-- Elements of the host go side by side if they do not go by the switches. -/
theorem quieting_host (hregistry : f.bot.registry.IgnoresTrace)
    (hask : ∀ text, Simulation.quieting.rel (ask text) (ask' text)) :
    Simulation.quietingRuns.RelHost (f.commands ask) (f.untraced.commands ask') := by
  intro element x y hcontent
  have hget : f.untraced.bot.registry.get? element.name = f.bot.registry.get? element.name := rfl
  unfold commands
  dsimp only
  rw [hget]
  cases hknown : f.bot.registry.get? element.name with
  | none => exact hcontent
  | some known =>
    dsimp only
    have hsame := hregistry _ _ (Entries.mem_of_lookup_eq_some hknown) element .none
    rw [← hsame, Script.run_eq_interpret, Script.run_eq_interpret, Script.interpret_shown,
      Script.interpret_shown]
    exact Simulation.script (quieting_hostCommands hask) hcontent _

end Frame

/-! ## Sentences and requests -/

namespace Bot

variable {bot : Bot} {depth deadline : Nat}

/-- That a category was found is reported whatever is traced. -/
theorem isDiagnostic_matchEvent (found : Found Template) :
    (matchEvent found).isDiagnostic = false := by
  unfold matchEvent
  split <;> rfl

/-- Sub-requests go side by side if the answers to their sentences do. -/
theorem quieting_subRequest
    (hanswer : ∀ raw, Simulation.quieting.rel (bot.answer depth deadline raw)
      ((bot.withTrace .none).answer depth deadline raw)) (text : String) :
    Simulation.quieting.rel (bot.subRequest depth deadline text)
      ((bot.withTrace .none).subRequest depth deadline text) := by
  let S := Simulation.quieting.exceptT
  have hsentences : S.rel
      ((bot.config.splitSentences false text).mapM fun s =>
        responding (bot.answer depth deadline s))
      ((bot.config.splitSentences false text).mapM fun s =>
        responding ((bot.withTrace .none).answer depth deadline s)) := by
    refine Simulation.mapM (fun raw => ?_) _
    intro w
    rw [run_responding, run_responding, hanswer]
  intro w
  rw [run_subRequest, run_subRequest]
  exact S.rel_bind hsentences (fun outputs => S.rel_pure (joinOutputs outputs)) w

/-- **An answer without its diagnostics is the answer of the bot with all switches off,** at every
depth. -/
theorem quieting_answer (hregistry : bot.registry.IgnoresTrace) (raw : String) :
    Simulation.quieting.rel (bot.answer depth deadline raw)
      ((bot.withTrace .none).answer depth deadline raw) := by
  -- induction on the levels that are left; a search that finds something has one left
  induction hlevels : bot.config.recursionLimit + 1 - depth using Nat.strongRecOn
    generalizing depth raw with
  | _ levels ih =>
    subst hlevels
    intro w
    have hsentence : (bot.withTrace .none).config.normalize raw = bot.config.normalize raw := rfl
    rw [run_answer, run_answer, hsentence]
    dsimp only
    rw [inputAt_quiet]
    have hresult : ((bot.withTrace .none).searchAt depth deadline (bot.config.normalize raw)
        w.quiet).result = (bot.searchAt depth deadline (bot.config.normalize raw) w).result := by
      rw [← quiet_searchAt]
      rfl
    rw [hresult, ← quiet_searched]
    cases hfound : (bot.searchAt depth deadline (bot.config.normalize raw) w).result with
    | error cause => rfl
    | ok found? =>
      cases found? with
      | none =>
        have hreport := @World.quiet_report
          (.noMatch w.user.id (bot.inputAt (bot.config.normalize raw) w).render) rfl
          (bot.searched depth deadline (bot.config.normalize raw) w)
        exact congrArg (Prod.mk _) hreport.symm
      | some found =>
        have hdepth := depth_le_of_searchAt hfound
        have hask := quieting_subRequest fun raw =>
          ih (bot.config.recursionLimit + 1 - (depth + 1)) (by omega) raw rfl
        have hevaluating : Simulation.quietingRuns.rel
            (bot.evaluating depth deadline (bot.config.normalize raw) found)
            ((bot.withTrace .none).evaluating depth deadline (bot.config.normalize raw) found) :=
          Simulation.interpretAll (Frame.quieting_commands hask) found.entry.content
            (Or.inr (Frame.quieting_host hregistry hask))
        -- the evaluation begins after the match was reported
        have hreport := World.quiet_report (isDiagnostic_matchEvent found)
          (bot.searched depth deadline (bot.config.normalize raw) w)
        have hdone := hevaluating
          { world := ((Session.report (matchEvent found)).run
              (bot.searched depth deadline (bot.config.normalize raw) w)).2 }
        rw [Run.quiet, hreport] at hdone
        dsimp only
        rw [hdone]
        rfl

/-- A request is answered alike, sentence by sentence. -/
theorem quieting_answersTo (hregistry : bot.registry.IgnoresTrace) (text : String) :
    Simulation.quieting.rel (bot.answersTo text) ((bot.withTrace .none).answersTo text) := by
  refine Simulation.mapM (fun sentence => ?_) (bot.config.splitSentences false text)
  -- the time of a sentence begins at the same moment
  exact fun w => quieting_answer hregistry sentence w

/-- The reply is recorded alike. -/
theorem quieting_recordReply (reply : Reply) :
    Simulation.quieting.rel (bot.recordReply reply) ((bot.withTrace .none).recordReply reply) := by
  let S := Simulation.quieting
  have hsentences : (bot.withTrace .none).config.splitSentences false reply.text =
      bot.config.splitSentences false reply.text := rfl
  unfold recordReply
  rw [hsentences]
  split
  · exact fun _ => rfl
  · exact S.rel_bind (bot.quieting_normalize "") fun _ _ => rfl

/-- **A request without its diagnostics is the request to the bot with all switches off.** -/
theorem quieting_chat (hregistry : bot.registry.IgnoresTrace) (text : String) :
    Simulation.quieting.rel (bot.chat text) ((bot.withTrace .none).chat text) := by
  intro w
  have hrequested : requested text w.quiet = (requested text w).quiet :=
    congrArg (fun log => ({ w with user := w.user.addRequest text, log } : World))
      (@Event.remaining_cons (.chatRequest w.user.id text) rfl w.log).symm
  rw [run_chat, run_chat, hrequested, quieting_answersTo hregistry]
  dsimp only
  -- what is said does not depend on the switches, and neither does what is recorded
  generalize (bot.answersTo text).run (requested text w) = answered
  have hreply : (bot.withTrace .none).replyOf answered.1 = bot.replyOf answered.1 := rfl
  have hreport := @World.quiet_report (.chatResponse w.user.id (bot.replyOf answered.1).text) rfl
    answered.2
  have huser : w.quiet.user.id = w.user.id := rfl
  rw [hreply, huser, ← hreport, quieting_recordReply]

end Bot

/-! ## Two settings of the switches -/

namespace Samples

/-- A bot that knows who it talks to, by an element of its host. -/
def acquainted : Bot where
  config := bot.config
  sets := bot.sets
  registry :=
    [("name", { accept := fun _ => .ok (), script := fun _ => .look fun v => .done v.user.id })]

/-- The elements of the sample do not look at the trace. -/
theorem ignoresTrace_acquainted : acquainted.registry.IgnoresTrace := by
  intro name extension hmem element trace
  obtain ⟨-, rfl⟩ := Prod.mk.inj (List.mem_singleton.1 hmem)
  rfl

/-- A world in which a greeting asks who the user is. -/
def welcoming : World :=
  { knowledge :=
      { graph := .insertAll .ignoreCase
          [(compilePath bot.config [.word "HELLO"] none none none,
              { content := [.text "Hello ", .srai [.text "who am I"]] }),
            (compilePath bot.config [.word "WHO", .word "AM", .word "I"] none none none,
              { content := [.extension "name" [] [], .text "!"] })]
        size := 2 }
    reported := false, user := .new bot.config "friend", clock := 0, log := [] }

end Samples

/-- **The trace switches do nothing but report.** Under any two settings of them, a search comes to
the same, whether it finds something or is given up, and it reports the same but for diagnostics.
And if no element of the host goes by the switches, a request has the same reply in worlds that are
the same but for diagnostics, and leads to such worlds: with the same knowledge, user and time, and
the same log. -/
theorem trace_only_reports :
    (∀ (α : Type) (options : SearchOptions) (graphs : List (Graph α)) (input : Input)
      (trace trace' : Trace),
      let x := search (options.withTrace trace) graphs input
      let y := search (options.withTrace trace') graphs input
      x.result = y.result ∧ Event.remaining x.events = Event.remaining y.events) ∧
    ∀ bot : Bot, bot.registry.IgnoresTrace →
      ∀ (trace trace' : Trace) (text : String) (w w' : World), w.quiet = w'.quiet →
      let x := ((bot.withTrace trace).chat text).run w
      let y := ((bot.withTrace trace').chat text).run w'
      x.1 = y.1 ∧ x.2.quiet = y.2.quiet := by
  constructor
  · intro α options graphs input trace trace' x y
    -- both are the search with all switches off
    have hsame : x.quiet = y.quiet := by
      rw [quiet_search, quiet_search]
      rfl
    exact ⟨(SearchResult.mk.inj hsame).2, (SearchResult.mk.inj hsame).1⟩
  · intro bot hregistry trace trace' text w w' hworlds
    have hx := @Bot.quieting_chat (bot.withTrace trace) hregistry text w
    have hy := @Bot.quieting_chat (bot.withTrace trace') hregistry text w'
    have huntraced :
        (bot.withTrace trace).withTrace .none = (bot.withTrace trace').withTrace .none := rfl
    rw [huntraced, hworlds] at hx
    exact Prod.mk.inj (hx.symm.trans hy)

/-- A greeting is answered in the same way, with all diagnostics and with none. -/
theorem trace_only_reports_hello :
    let x := ((Samples.acquainted.withTrace .all).chat "hello").run Samples.welcoming
    let y := ((Samples.acquainted.withTrace .none).chat "hello").run Samples.welcoming
    x.1.text = "Hello friend!" ∧ y.2.log.length < x.2.log.length ∧ x.1 = y.1 ∧
      x.2.quiet = y.2.quiet :=
  ⟨by decide +kernel, by decide +kernel,
    trace_only_reports.2 _ Samples.ignoresTrace_acquainted .all .none "hello" _ _ rfl⟩

end Parley
