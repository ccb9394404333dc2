import Parley.Proofs.Talk.Agreement

/-!
# Sub-requests answer as requests do

There are two ways to answer a text. A request answers all sentences, each in its own time, and puts
a message in the place of those that are given up; a sub-request answers them up to the first that
is given up, deeper inside and in the time that is left. Apart from the time and from the levels
that are left, both come to the same.

Main results:

* `Bot.conveyed_answers` — what the answers to sentences have to do with their responses;
* `Bot.conveys_subRequest` — a request conveys what the sub-request came to;
* `Bot.subRequest_transparent` — the same for templates that ask for one, at every depth.
-/

namespace Parley

open Text

/-! ## What a request conveys -/

/-- Why the first sentence that was given up was given up, if there is one. -/
def Reply.firstCause? (reply : Reply) : Option Abort :=
  reply.details.findSome? fun d => d.outcome.cause?

/-- Whether a request has come to the same as a sub-request. If the sub-request has a text, the
reply has this text, no sentence is given up, and the predicates are the same; and if it was given
up, the first sentence of the request that is given up has the same cause. -/
def Conveys (asked : Reply × World) (sub : Except Abort String × World) : Prop :=
  (∀ output, sub.1 = .ok output → asked.1.text = output ∧ asked.1.firstCause? = none ∧
    asked.2.user.predicates = sub.2.user.predicates) ∧
    ∀ cause, sub.1 = .error cause → asked.1.firstCause? = some cause

/-- The causes in a reply are those of the answers. -/
theorem firstCause?_replyOf (bot : Bot) (answers : List Answer) :
    (bot.replyOf answers).firstCause? = answers.findSome? Answer.cause? := by
  rw [Reply.firstCause?, Bot.details_replyOf, List.findSome?_map]
  exact congrArg (answers.findSome? ·) (funext Answer.cause?_outcome)

/-- Answers that are all given make up the text of their outputs. -/
theorem text_replyOf (bot : Bot) {answers : List Answer} {outputs : List String}
    (h : answers.map Answer.result = outputs.map .ok) :
    (bot.replyOf answers).text = joinOutputs outputs := by
  have houtputs : answers.map (fun a => trim (bot.outputOf a)) = outputs.map trim := by
    induction outputs generalizing answers with
    | nil =>
      rw [List.map_nil, List.map_eq_nil_iff] at h
      rw [h]
      rfl
    | cons output outputs ih =>
      obtain ⟨a, rest, rfl, hresult, hrest⟩ := List.map_eq_cons_iff.1 h
      rw [List.map_cons, List.map_cons, ih hrest, Bot.outputOf, hresult]
  rw [joinOutputs, ← houtputs]
  rfl

/-! ## Sentence by sentence -/

/-- Whether answers are the same as responses: all of them, up to the first that is given up. -/
def Conveyed (clock clock' : Nat) (responses : Except Abort (List String) × World)
    (answers : List Answer × World) : Prop :=
  match responses.1 with
  | .ok outputs =>
    answers.1.map Answer.result = outputs.map .ok ∧ responses.2.Alike clock clock' answers.2
  | .error cause => answers.1.findSome? Answer.cause? = some cause

namespace Conveyed

variable {clock clock' : Nat} {a : Answer} {v : World} {answers : List Answer × World}

/-- After a sentence that is given up, the others do not matter. -/
theorem of_error {cause : Abort} (h : a.result = .error cause) :
    Conveyed clock clock' (.error cause, v) (a :: answers.1, answers.2) := by
  show List.findSome? Answer.cause? (a :: answers.1) = some cause
  rw [List.findSome?_cons, Answer.cause?_of_error h]

/-- A sentence that has an answer may come before others. -/
theorem cons {output : String} (h : a.result = .ok output)
    {outputs? : Except Abort (List String)} (hrest : Conveyed clock clock' (outputs?, v) answers) :
    Conveyed clock clock' (outputs?.map (output :: ·), v) (a :: answers.1, answers.2) := by
  cases outputs? with
  | ok outputs =>
    obtain ⟨hresults, hworlds⟩ := hrest
    refine ⟨?_, hworlds⟩
    show a.result :: answers.1.map Answer.result = .ok output :: outputs.map .ok
    rw [h, hresults]
  | error cause =>
    show List.findSome? Answer.cause? (a :: answers.1) = some cause
    rw [List.findSome?_cons, Answer.cause?_of_ok h]
    exact hrest

end Conveyed

namespace Bot

variable {bot : Bot} {spared : Prop} {depth deadline clock clock' : Nat}

/-- The answers to sentences are their responses, up to the first that is given up. -/
theorem conveyed_answers (hspared : spared ∨ depth = 0)
    (htime : deadline ≤ clock ↔ bot.config.timeout = 0) (sentences : List String) {w w' : World}
    (h : w.Alike clock clock' w') :
    let responses :=
      (ExceptT.run (sentences.mapM fun s => responding (bot.answer depth deadline s))).run w
    spared ∧ responses.1 = .error .recursionLimit ∨
      Conveyed clock clock' responses ((sentences.mapM bot.answerTop).run w') := by
  induction sentences generalizing w w' with
  | nil => exact Or.inr ⟨rfl, h⟩
  | cons raw rest ih =>
    rw [List.mapM_cons, List.mapM_cons, run_bind_eq, run_bind_state, run_bind_state, run_responding]
    -- the same bot answers on both sides, with the limit that it has
    have hfirst : AgreeAnswers spared clock clock' ((bot.answer depth deadline raw).run w)
        ((bot.answerTop raw).run w') :=
      @agree_answerTop bot bot.config.recursionLimit depth deadline clock clock' spared (by omega)
        (hspared.imp_right fun hdepth => by rw [hdepth, Nat.sub_zero]) htime raw w w' h
    generalize (bot.answer depth deadline raw).run w = x at hfirst ⊢
    generalize (bot.answerTop raw).run w' = y at hfirst ⊢
    obtain ⟨a, v⟩ := x
    obtain ⟨b, v'⟩ := y
    rcases hfirst with ⟨hs, hgiven⟩ | ⟨rfl, halike⟩
    · dsimp only at hgiven ⊢
      rw [hgiven]
      exact Or.inl ⟨hs, rfl⟩
    · dsimp only at halike ⊢
      cases hresult : a.result with
      | error cause => exact Or.inr (.of_error hresult)
      | ok output =>
        have hrest := ih halike
        dsimp only at hrest ⊢
        rw [run_bind_eq]
        generalize (ExceptT.run (rest.mapM fun s =>
          responding (bot.answer depth deadline s))).run v = responses at hrest ⊢
        obtain ⟨outputs?, u⟩ := responses
        cases outputs? with
        | ok outputs =>
          rcases hrest with ⟨-, hgiven⟩ | hconveyed
          · cases hgiven
          · exact Or.inr (hconveyed.cons hresult)
        | error cause => exact hrest.imp_right (Conveyed.cons hresult)

/-! ## Requests -/

/-- A request leaves the predicates as the answers to its sentences have left them. -/
theorem predicates_snd_run_chat (text : String) (w : World) :
    ((bot.chat text).run w).2.user.predicates =
      ((bot.answersTo text).run (requested text w)).2.user.predicates := by
  rw [user_snd_run_chat, User.addReply]

/-- A request conveys what a sub-request comes to, unless the sub-request is too deep for it. -/
theorem conveys_subRequest (hspared : spared ∨ depth = 0)
    (htime : deadline ≤ clock ↔ bot.config.timeout = 0) (text : String) {w w' : World}
    (h : w.Alike clock clock' w') :
    let sub := (bot.subRequest depth deadline text).run w
    spared ∧ sub.1 = .error .recursionLimit ∨ Conveys ((bot.chat text).run w') sub := by
  have hrequested : w.Alike clock clock' (requested text w') :=
    ⟨h.knowledge, h.graph, h.that, h.predicates, h.clock_left, h.clock_right, h.builtIn⟩
  have hconveyed := conveyed_answers hspared htime (bot.config.splitSentences false text) hrequested
  -- what is recorded before and after the answers does not matter for them
  change _ ∨ Conveyed _ _ _ ((bot.answersTo text).run (requested text w')) at hconveyed
  dsimp only
  unfold Conveys
  rw [fst_run_chat, predicates_snd_run_chat, run_subRequest, run_bind_eq, firstCause?_replyOf]
  generalize (bot.answersTo text).run (requested text w') = answers at hconveyed ⊢
  generalize (ExceptT.run ((bot.config.splitSentences false text).mapM fun s =>
    responding (bot.answer depth deadline s))).run w = responses at hconveyed ⊢
  obtain ⟨outputs?, v⟩ := responses
  rcases hconveyed with ⟨hs, hgiven⟩ | hconveyed
  · dsimp only at hgiven
    subst hgiven
    exact Or.inl ⟨hs, rfl⟩
  · cases outputs? with
    | ok outputs =>
      obtain ⟨hresults, halike⟩ := hconveyed
      refine Or.inr ⟨?_, fun cause hcause => by cases hcause⟩
      intro output houtput
      obtain rfl : joinOutputs outputs = output := Except.ok.inj houtput
      refine ⟨text_replyOf bot hresults, ?_, halike.predicates⟩
      rw [List.findSome?_eq_none_iff]
      intro a ha
      -- every answer has one of the outputs as its result
      have hmem : a.result ∈ outputs.map Except.ok := hresults ▸ List.mem_map_of_mem ha
      obtain ⟨output, -, hresult⟩ := List.mem_map.1 hmem
      exact Answer.cause?_of_ok hresult.symm
    | error cause =>
      refine Or.inr ⟨(fun output houtput => by cases houtput), ?_⟩
      intro cause' hcause
      obtain rfl : cause = cause' := Except.error.inj hcause
      exact hconveyed

theorem evolves_subRequest (depth : Nat) (text : String) :
    Session.Evolves bot (bot.subRequest depth deadline text) :=
  (evolves_answerAll (evolves_answer depth deadline) _).bind fun _ => Session.evolves_pure _

/-- A sub-request has the result that it would have at the surface, with fewer levels left there by
as many as it is deep. -/
theorem subRequest_eq_withLimit (hdepth : depth ≤ bot.config.recursionLimit) {w : World}
    (hbuiltIn : w.BuiltIn) (text : String) :
    let surface := bot.withLimit (bot.config.recursionLimit - depth)
    ((surface.subRequest 0 deadline text).run w).1 =
        ((bot.subRequest depth deadline text).run w).1 ∧
      ((surface.subRequest 0 deadline text).run w).2.user =
        ((bot.subRequest depth deadline text).run w).2.user := by
  have hagree := @agree_subRequest bot (bot.config.recursionLimit - depth) depth 0 deadline deadline
    w.clock w.clock False (by omega) (Or.inr (by omega)) Iff.rfl text w w hbuiltIn.alike
  rcases hagree with ⟨hfalse, -⟩ | ⟨hresult, hworlds⟩
  · exact hfalse.elim
  · exact ⟨hresult.symm,
      hworlds.user_eq (evolves_subRequest depth text w) (evolves_subRequest 0 text w)⟩

end Bot

/-! ## Templates that ask -/

namespace Frame

variable {f : Frame} {content : List Part} {r r₁ : Run}

/-- A part that asks first evaluates its content, and then asks for the answer to the text. -/
theorem run_srai {ask : Answerer} {text : String}
    (hcontent : (ExceptT.run (Part.evaluateAll f ask content)).run r = (.ok text, r₁)) :
    (ExceptT.run ((Part.srai content).evaluate f ask)).run r =
      (ExceptT.run (f.request ask (trim text))).run r₁ := by
  rw [Part.evaluate, run_bind_eq, hcontent]

/-- Built-in content leaves a world with built-in templates, and takes no time. -/
theorem alike_of_evaluateAll {depth clock : Nat} {result : Except Abort String}
    (hcontent : Part.areBuiltIn content = true) (h : r.world.Alike clock clock r.world)
    (heval : (ExceptT.run (Part.evaluateAll f (f.bot.subRequest depth f.deadline) content)).run r =
      (result, r₁)) : r₁.world.Alike clock clock r₁.world := by
  have hask := @Bot.agree_subRequest f.bot f.bot.config.recursionLimit depth depth f.deadline
    f.deadline clock clock False (Nat.le_refl _) (Or.inr rfl) Iff.rfl
  have hcommands := @agree_commands f.bot.config.recursionLimit clock clock False f f
    (f.bot.subRequest depth f.deadline) (f.bot.subRequest depth f.deadline) rfl rfl Iff.rfl hask
  -- an evaluation agrees with itself, so that what is preserved side by side is preserved
  have hagree := Simulation.interpretAll hcommands content (Or.inl hcontent) r r ⟨h, rfl⟩
  rw [← Part.evaluateAll_eq_interpretAll, heval] at hagree
  rcases hagree with ⟨hfalse, -⟩ | ⟨-, hruns⟩
  · exact hfalse.elim
  · exact hruns.world

/-- What a template asks for comes to what asking directly would come to, unless the limit of
recursion is reached. -/
theorem conveys_srai (htimeout : 0 < f.bot.config.timeout)
    (hcontent : Part.areBuiltIn content = true) (hbuiltIn : r.world.BuiltIn)
    (hdeadline : r.world.clock < f.deadline) {text : String}
    (heval : (ExceptT.run (Part.evaluateAll f (f.bot.subRequest (f.depth + 1) f.deadline)
      content)).run r = (.ok text, r₁)) {result : Except Abort String} {r₂ : Run}
    (hasked : (ExceptT.run ((Part.srai content).evaluate f
      (f.bot.subRequest (f.depth + 1) f.deadline))).run r = (result, r₂))
    (hlimit : result ≠ .error .recursionLimit) :
    Conveys ((f.bot.chat (trim text)).run r₁.world) (result, r₂.world) := by
  have hafter := alike_of_evaluateAll hcontent hbuiltIn.alike heval
  -- evaluating the content takes no time, so that the deadline has not passed when it is asked
  have hup : ¬ f.deadline ≤ r₁.world.clock := by
    rw [hafter.clock_left]
    omega
  rw [run_srai heval, run_request, if_neg hup] at hasked
  -- the request itself is reported, which changes nothing but the log
  have hreported := hafter.reported
    (World.reported_report (.subRequest (f.depth + 1) (trim text)) r₁.world)
    (World.reported_self r₁.world)
  have hconveys := @Bot.conveys_subRequest f.bot True (f.depth + 1) f.deadline _ _ (Or.inl trivial)
    (by omega) (trim text) _ _ hreported
  dsimp only at hconveys hasked
  generalize (f.bot.subRequest (f.depth + 1) f.deadline (trim text)).run
    ((Session.report (.subRequest (f.depth + 1) (trim text))).run r₁.world).2 = sub
    at hconveys hasked
  obtain ⟨rfl, rfl⟩ := Prod.mk.inj hasked
  exact hconveys.resolve_left fun hgiven => hlimit hgiven.2

end Frame

/-- **A sub-request answers as a request of the user would.** A request conveys what the sub-request
for the same text comes to. How deep a sub-request is matters only for how many levels are left. A
template that asks for the answer to a text therefore gets what asking directly would get, in the
world in which the template asks, as long as the limit of recursion is not reached. -/
theorem Bot.subRequest_transparent {bot : Bot} (htimeout : 0 < bot.config.timeout) {w : World}
    (hbuiltIn : w.BuiltIn) {deadline : Nat} (hdeadline : w.clock < deadline) (text : String) :
    Conveys ((bot.chat text).run w) ((bot.subRequest 0 deadline text).run w) ∧
      (∀ depth ≤ bot.config.recursionLimit,
        let surface := bot.withLimit (bot.config.recursionLimit - depth)
        ((surface.subRequest 0 deadline text).run w).1 =
            ((bot.subRequest depth deadline text).run w).1 ∧
          ((surface.subRequest 0 deadline text).run w).2.user =
            ((bot.subRequest depth deadline text).run w).2.user) ∧
      ∀ (f : Frame) (content : List Part) (r r₁ r₂ : Run) (asked : String)
        (result : Except Abort String), f.bot = bot → f.deadline = deadline → r.world = w →
        Part.areBuiltIn content = true →
        let ask := bot.subRequest (f.depth + 1) deadline
        (ExceptT.run (Part.evaluateAll f ask content)).run r = (.ok asked, r₁) →
        (ExceptT.run ((Part.srai content).evaluate f ask)).run r = (result, r₂) →
        result ≠ .error .recursionLimit →
        Conveys ((bot.chat (trim asked)).run r₁.world) (result, r₂.world) := by
  refine ⟨?_, fun depth hdepth => subRequest_eq_withLimit hdepth hbuiltIn text, ?_⟩
  · have hconveys := @conveys_subRequest bot False 0 deadline _ _ (Or.inr rfl) (by omega) text _ _
      hbuiltIn.alike
    exact hconveys.resolve_left fun hgiven => hgiven.1
  · rintro f content r r₁ r₂ asked result rfl rfl rfl hcontent ask heval hasked hlimit
    exact Frame.conveys_srai htimeout hcontent hbuiltIn hdeadline heval hasked hlimit

/-- A greeting that asks for another gets the same as a request and as a sub-request. -/
theorem Bot.subRequest_transparent_hello :
    let asked := (Samples.bot.chat "hello").run Samples.talkative
    let sub := (Samples.bot.subRequest 0 10 "hello").run Samples.talkative
    sub.1.toOption = some "Hi! there" ∧ Conveys asked sub :=
  ⟨by decide +kernel,
    (Bot.subRequest_transparent (by decide) Samples.builtIn_talkative (by decide) "hello").1⟩

end Parley
