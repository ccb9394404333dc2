import Mathlib.Data.List.Forall2
import Parley.Proofs.Talk.Agreement
import Parley.Proofs.Talk.Deadlines
import Parley.Proofs.Talk.Descent

/-!
# Every request comes to an end

Nothing about a template or a text keeps sub-requests from going on for ever. They come to an end
because a search that is nested too deep gives up, and because this ends everything that is done for
the sentence: nothing is evaluated below the limit of recursion, and nothing is looked for after the
first search there.

There is one way of not getting there: a time for a sentence that is so long that the clock cannot
show the deadline. Such a request breaks off without a reply.

Main results:

* `Simulation.completion` — coming to an end, with orderly visits, goes on step by step;
* `Bot.completes_tryAnswer` — with enough levels, a sentence gets the answer that it has;
* `Bot.chat_ends` — with two levels more than the limit of recursion, every request comes to an end,
  and it has a reply exactly if the clock can show its deadlines.
-/

namespace Parley

open Text

/-! ## Coming to an end -/

/-- Whether visits are in order: all of them are within the limit, except that what was stopped was
stopped by one more search, which was the first one beyond the limit. -/
def Orderly (limit : Nat) (stopped : Prop) (visits : List Visit) : Prop :=
  ∃ within, (∀ v ∈ within, v.depth ≤ limit) ∧
    (stopped ∧ visits = within ++ [.search (limit + 1)] ∨ ¬ stopped ∧ visits = within)

namespace Orderly

variable {limit : Nat} {stopped : Prop} {visits : List Visit}

theorem of_depth_le (hvisits : ∀ v ∈ visits, v.depth ≤ limit) (h : ¬ stopped) :
    Orderly limit stopped visits :=
  ⟨visits, hvisits, Or.inr ⟨h, rfl⟩⟩

theorem nil (h : ¬ stopped) : Orderly limit stopped [] := .of_depth_le (by simp) h

/-- What is stopped at once has only been searched for beyond the limit. -/
theorem beyond (h : stopped) : Orderly limit stopped [.search (limit + 1)] :=
  ⟨[], by simp, Or.inl ⟨h, rfl⟩⟩

/-- Visits within the limit may come before others. -/
theorem append {first : List Visit} (hfirst : ∀ v ∈ first, v.depth ≤ limit)
    (h : Orderly limit stopped visits) : Orderly limit stopped (first ++ visits) := by
  obtain ⟨within, hwithin, hvisits⟩ := h
  refine ⟨first ++ within, ?_, ?_⟩
  · intro v hv
    rcases List.mem_append.1 hv with hv | hv
    · exact hfirst v hv
    · exact hwithin v hv
  · rcases hvisits with ⟨hstopped, rfl⟩ | ⟨hstopped, rfl⟩
    · exact Or.inl ⟨hstopped, by rw [List.append_assoc]⟩
    · exact Or.inr ⟨hstopped, rfl⟩

theorem depth_le (h : Orderly limit stopped visits) (hstopped : ¬ stopped) :
    ∀ v ∈ visits, v.depth ≤ limit := by
  obtain ⟨within, hwithin, ⟨hs, -⟩ | ⟨-, rfl⟩⟩ := h
  · exact absurd hs hstopped
  · exact hwithin

end Orderly

/-- Whether an entry of a reply accounts for the visits for its sentence: no template is evaluated
beyond the limit of recursion, and the first search beyond the limit is the last thing that is done
for the sentence, which is given up for this cause. -/
structure Details.AccountsFor (d : Details) (limit : Nat) (visits : List Visit) : Prop where
  template_le : ∀ depth, .template depth ∈ visits → depth ≤ limit
  search_le : ∀ depth, .search depth ∈ visits → depth ≤ limit + 1
  beyond : ∀ earlier later, visits = earlier ++ .search (limit + 1) :: later →
    later = [] ∧ d.outcome = .aborted .recursionLimit
  stopped : d.outcome = .aborted .recursionLimit → .search (limit + 1) ∈ visits

theorem Orderly.accountsFor {limit : Nat} {stopped : Prop} {visits : List Visit} {d : Details}
    (h : Orderly limit stopped visits)
    (hstopped : d.outcome = .aborted .recursionLimit ↔ stopped) : d.AccountsFor limit visits := by
  obtain ⟨within, hwithin, ⟨hs, rfl⟩ | ⟨hs, rfl⟩⟩ := h
  · have hle : ∀ v ∈ within ++ [.search (limit + 1)],
        v.depth ≤ limit ∨ v = .search (limit + 1) := by
      intro v hv
      exact (List.mem_append.1 hv).imp (hwithin v) List.mem_singleton.1
    refine ⟨?_, ?_, ?_, fun _ => by simp⟩
    · intro depth hv
      rcases hle _ hv with hv | hv
      · exact hv
      · cases hv
    · intro depth hv
      rcases hle _ hv with hv | hv
      · exact Nat.le_succ_of_le hv
      · exact Nat.le_of_eq (congrArg Visit.depth hv)
    · intro earlier later hsplit
      refine ⟨?_, hstopped.2 hs⟩
      -- it is the search at the end, because all others are within the limit
      rcases List.append_eq_append_iff.1 hsplit with ⟨as, -, hlater⟩ | ⟨bs, rfl, hlater⟩
      · cases as with
        | nil => exact (List.cons.inj hlater).2.symm
        | cons a as => simp at hlater
      · cases bs with
        | nil => exact (List.cons.inj hlater).2
        | cons b bs =>
          have hb := hwithin b (by simp)
          rw [← (List.cons.inj hlater).1] at hb
          exact absurd hb (Nat.not_succ_le_self limit)
  · refine ⟨fun depth hv => hwithin _ hv, fun depth hv => Nat.le_succ_of_le (hwithin _ hv), ?_,
      fun houtcome => absurd (hstopped.1 houtcome) hs⟩
    rintro earlier later rfl
    exact absurd (hwithin (.search (limit + 1)) (by simp)) (Nat.not_succ_le_self limit)

/-- Whether a descent comes to the end that a computation has, in an orderly way and without giving
up for want of time. `cause?` says why a value stands for giving up, if it does. -/
structure Completes {σ β : Type} (limit : Nat) (inTime : Prop) (keeps : σ → Prop)
    (cause? : β → Option Abort) (before : List Visit) (x : β × σ)
    (y : Option (β × σ × List Visit)) : Prop where
  keeps : keeps x.2
  inTime : inTime → cause? x.1 ≠ some .timeout
  ends : ∃ visits, y = some (x.1, x.2, before ++ visits) ∧
    Orderly limit (cause? x.1 = some .recursionLimit) visits

/-- Descents go on as long as the computations do. -/
def Simulation.completion (limit : Nat) (inTime : Prop) {σ : Type} (keeps : σ → Prop) :
    Simulation (ExceptT Abort (StateM σ)) (ExceptT Abort (Descent σ)) where
  rel x y := ∀ s before, keeps s →
    Completes limit inTime keeps causeOf? before ((ExceptT.run x).run s)
      ((ExceptT.run y).run (s, before))
  rel_pure a := by
    intro s before hs
    refine ⟨hs, (fun _ h => by cases h), [], ?_, .nil (fun h => by cases h)⟩
    rw [List.append_nil]
    rfl
  rel_bind := by
    intro α β x y f g hxy hfg s before hs
    obtain ⟨hkeeps, htime, visits, hends, horderly⟩ := hxy s before hs
    rw [run_bind_eq, run_bind_descent, hends]
    generalize (ExceptT.run x).run s = done at hkeeps htime horderly ⊢
    obtain ⟨result, s'⟩ := done
    cases result with
    | error cause =>
      -- what comes second is left out on both sides
      exact ⟨hkeeps, htime, visits, rfl, horderly⟩
    | ok a =>
      have hfirst := horderly.depth_le (fun h => by cases h)
      obtain ⟨hkeeps', htime', visits', hends', horderly'⟩ := hfg a s' (before ++ visits) hkeeps
      refine ⟨hkeeps', htime', visits ++ visits', ?_, horderly'.append hfirst⟩
      rw [← List.append_assoc]
      exact hends'

section Completion

variable {limit : Nat} {inTime : Prop} {σ α : Type} {keeps : σ → Prop}
  {x : ExceptT Abort (StateM σ) α}

/-- What visits nothing comes to an end. -/
theorem Simulation.completion_doing (hkeeps : ∀ s, keeps s → keeps ((ExceptT.run x).run s).2)
    (hcause : ∀ s, keeps s → causeOf? ((ExceptT.run x).run s).1 ≠ some .recursionLimit ∧
      (inTime → causeOf? ((ExceptT.run x).run s).1 ≠ some .timeout)) :
    (Simulation.completion limit inTime keeps).rel x (Descent.doing x) := by
  intro s before hs
  obtain ⟨hlimit, htime⟩ := hcause s hs
  refine ⟨hkeeps s hs, htime, [], ?_, .nil hlimit⟩
  rw [List.append_nil]
  rfl

/-- What is never given up needs only to keep what has to be kept. -/
theorem Simulation.completion_doing_of_ok
    (hkeeps : ∀ s, keeps s → keeps ((ExceptT.run x).run s).2)
    (hok : ∀ s, ∃ a, ((ExceptT.run x).run s).1 = .ok a) :
    (Simulation.completion limit inTime keeps).rel x (Descent.doing x) := by
  refine Simulation.completion_doing hkeeps fun s _ => ?_
  obtain ⟨a, ha⟩ := hok s
  rw [ha]
  exact ⟨(fun h => by cases h), fun _ h => by cases h⟩

end Completion

/-! ## Templates -/

/-- Whether a world has built-in templates only and its clock stands at a time. -/
abbrev World.Settled (clock : Nat) (w : World) : Prop := w.Alike clock clock w

/-- Whether the sub-requests that are answered until a deadline come to an end. -/
def RequestsComplete (limit deadline clock : Nat) (ask : Answerer)
    (ask' : String → Descent World (Except Abort String)) : Prop :=
  ∀ text w before, w.Settled clock →
    Completes limit (clock < deadline) (World.Settled clock) causeOf? before ((ask text).run w)
      ((ask' text).run (w, before))

/-- The simulation for what is done while a template is evaluated. -/
abbrev Simulation.evaluation (limit deadline clock : Nat) :
    Simulation Evaluation (ExceptT Abort (Descent Run)) :=
  Simulation.completion limit (clock < deadline) fun r : Run => r.world.Settled clock

variable {bot : Bot} {limit depth deadline clock : Nat}

namespace Frame

variable {f : Frame} {ask : Answerer} {ask' : String → Descent World (Except Abort String)}

theorem completion_checkTime :
    (Simulation.evaluation limit f.deadline clock).rel f.checkTime (Descent.doing f.checkTime) := by
  refine Simulation.completion_doing ?_ ?_
  · intro r hr
    rw [run_checkTime]
    split
    · exact hr.reported (World.reported_report _ _) (World.reported_report _ _)
    · exact hr
  · intro r hr
    rw [run_checkTime, hr.clock_left]
    split
    · exact ⟨(fun h => by cases h), fun hin => by omega⟩
    · exact ⟨(fun h => by cases h), fun _ h => by cases h⟩

/-- A template asks for a sub-request in an orderly way if it is answered so. -/
theorem completion_request (hask : RequestsComplete limit f.deadline clock ask ask')
    (text : String) :
    (Simulation.evaluation limit f.deadline clock).rel (f.request ask text)
      ((f.tryCommands ask').request text) := by
  have hreport : (Simulation.evaluation limit f.deadline clock).rel
      (Evaluation.session (Session.report (.subRequest (f.depth + 1) text)))
      (Descent.doing (Evaluation.session (Session.report (.subRequest (f.depth + 1) text)))) := by
    refine Simulation.completion_doing_of_ok ?_ fun r => ⟨_, rfl⟩
    intro r hr
    exact hr.reported (World.reported_report _ _) (World.reported_report _ _)
  refine Simulation.rel_bind _ completion_checkTime fun _ => ?_
  refine Simulation.rel_bind _ hreport fun _ => ?_
  -- what is left is the answer itself, whose visits come after those before it
  intro r before hr
  obtain ⟨hkeeps, htime, visits, hends, horderly⟩ := hask text r.world before hr
  have hanswered : (ExceptT.run (Descent.answered (ask' text))).run (r, before) =
      ((ask' text).run (r.world, before)).map fun done =>
        (done.1, { r with world := done.2.1 }, done.2.2) := rfl
  rw [run_bind_eq, Evaluation.run_session, hanswered, hends]
  dsimp only
  generalize (ask text).run r.world = done at hkeeps htime horderly ⊢
  obtain ⟨result, v⟩ := done
  cases result with
  | ok output => exact ⟨hkeeps, htime, visits, rfl, horderly⟩
  | error cause => exact ⟨hkeeps, htime, visits, rfl, horderly⟩

/-- What templates can do in a frame comes to an end if sub-requests do. -/
theorem completion_commands (hask : RequestsComplete limit f.deadline clock ask ask') :
    (Simulation.evaluation limit f.deadline clock).RelCommands (f.commands ask)
      (f.tryCommands ask') where
  star := rfl
  lookup name scope := by
    refine Simulation.completion_doing_of_ok ?_ ?_
    · intro r hr
      cases scope <;> exact hr
    · intro r
      cases scope <;> exact ⟨_, rfl⟩
  assign name value scope := by
    refine Simulation.completion_doing_of_ok ?_ ?_
    · intro r hr
      cases scope with
      | predicate => exact hr.setPredicate name value
      | «variable» => exact hr
    · intro r
      cases scope <;> exact ⟨_, rfl⟩
  request := completion_request hask

end Frame

/-! ## Sub-requests and sentences -/

namespace Bot

/-- A sub-request comes to an end if its sentences do. -/
theorem completes_trySubRequest {inTime : Prop} {keeps : World → Prop}
    {answer : String → Descent World Answer}
    (hanswer : ∀ raw w before, keeps w → Completes limit inTime keeps Answer.cause? before
      ((bot.answer depth deadline raw).run w) ((answer raw).run (w, before)))
    (text : String) (w : World) (before : List Visit) (hw : keeps w) :
    Completes limit inTime keeps causeOf? before ((bot.subRequest depth deadline text).run w)
      ((bot.trySubRequest answer text).run (w, before)) := by
  rw [run_subRequest, trySubRequest]
  let S := Simulation.completion limit inTime keeps
  have hsentences : S.rel
      ((bot.config.splitSentences false text).mapM fun s =>
        responding (bot.answer depth deadline s))
      ((bot.config.splitSentences false text).mapM fun s =>
        ExceptT.mk (Answer.result <$> answer s)) := by
    -- each sentence of the request is answered within the levels that are left
    refine Simulation.mapM (fun raw => ?_) _
    intro v before hv
    obtain ⟨hkeeps, htime, visits, hends, horderly⟩ := hanswer raw v before hv
    have hresult : (ExceptT.run (ExceptT.mk (Answer.result <$> answer raw))).run (v, before) =
        ((answer raw).run (v, before)).map fun done => (done.1.result, done.2) :=
      StateT.run_map ..
    rw [run_responding, hresult, hends]
    exact ⟨hkeeps, htime, visits, rfl, horderly⟩
  exact S.rel_bind hsentences (fun outputs => S.rel_pure (joinOutputs outputs)) w before hw

/-- The evaluation of a template that is built in comes to an end if its sub-requests do. -/
theorem completes_evaluating {sentence : String} {found : Found Template}
    {ask : String → Descent World (Except Abort String)}
    (hcontent : Part.areBuiltIn found.entry.content = true)
    (hask : RequestsComplete limit deadline clock (bot.subRequest (depth + 1) deadline) ask)
    (r : Run) (before : List Visit) (hr : r.world.Settled clock) :
    Completes limit (clock < deadline) (fun r => r.world.Settled clock) causeOf? before
      ((ExceptT.run (bot.evaluating depth deadline sentence found)).run r)
      ((ExceptT.run (Part.interpretAll ((bot.frameOf depth deadline sentence found).tryCommands ask)
        found.entry.content)).run (r, before)) :=
  Simulation.interpretAll
    (@Frame.completion_commands limit clock (bot.frameOf depth deadline sentence found) _ _ hask)
    found.entry.content (Or.inl hcontent) r before hr

/-- **With enough levels, a sentence gets the answer that it has.** It takes no more levels than are
left up to the limit of recursion, and one more for the search beyond the limit. -/
theorem completes_tryAnswer {levels : Nat} (hdepth : depth ≤ bot.config.recursionLimit + 1)
    (hlevels : bot.config.recursionLimit + 2 ≤ levels + depth) (raw : String) (w : World)
    (before : List Visit) (hw : w.Settled clock) :
    Completes bot.config.recursionLimit (clock < deadline) (World.Settled clock) Answer.cause?
      before ((bot.answer depth deadline raw).run w)
      ((bot.tryAnswer levels depth deadline raw).run (w, before)) := by
  -- induction on the levels; there is one left for every depth up to the one beyond the limit
  induction levels generalizing depth raw w before with
  | zero => omega
  | succ levels ih =>
    rw [run_answer]
    show Completes _ _ _ _ _ _ (bot.tryAnswer (levels + 1) depth deadline raw (w, before))
    rw [tryAnswer]
    generalize bot.config.normalize raw = sentence
    have hsearched := hw.reported (bot.reported_searched depth deadline sentence w)
      (bot.reported_searched depth deadline sentence w)
    have hsearch : depth ≤ bot.config.recursionLimit →
        ∀ v ∈ [Visit.search depth], v.depth ≤ bot.config.recursionLimit := by
      intro hle v hv
      rw [List.mem_singleton.1 hv]
      exact hle
    dsimp only
    cases hresult : (bot.searchAt depth deadline sentence w).result with
    | error cause =>
      by_cases hle : depth ≤ bot.config.recursionLimit
      · -- only the time can be up
        obtain ⟨rfl, hup⟩ := timeout_of_searchAt hle hresult
        rw [hw.clock_left] at hup
        refine ⟨hsearched, fun hin => by omega, [.search depth], rfl, ?_⟩
        exact .of_depth_le (hsearch hle) (fun h => by cases h)
      · -- this is the first search beyond the limit
        rw [searchAt_of_limit_lt (Nat.lt_of_not_le hle)] at hresult
        cases hresult
        obtain rfl : depth = bot.config.recursionLimit + 1 := by omega
        exact ⟨hsearched, (fun _ h => by cases h), _, rfl, .beyond rfl⟩
    | ok found? =>
      have hle := depth_le_of_searchAt hresult
      cases found? with
      | none =>
        refine ⟨?_, (fun _ h => by cases h), [.search depth], rfl, ?_⟩
        · exact hsearched.reported (World.reported_report _ _) (World.reported_report _ _)
        · exact .of_depth_le (hsearch hle) (fun h => by cases h)
      | some found =>
        -- the template is built in, and its sub-requests have a level less and need a level less
        have hask := @completes_trySubRequest bot bot.config.recursionLimit (depth + 1) deadline
          (clock < deadline) (World.Settled clock) (bot.tryAnswer levels (depth + 1) deadline)
          fun raw v before hv => ih (by omega) (by omega) raw v before hv
        have hworld := hsearched.reported (World.reported_report (matchEvent found) _)
          (World.reported_report (matchEvent found) _)
        obtain ⟨hkeeps, htime, visits, hends, horderly⟩ :=
          @completes_evaluating bot _ depth deadline clock sentence found _
            (hw.builtIn.of_searchAt hresult) hask { world := _ }
            (before ++ [.search depth] ++ [.template depth]) hworld
        have hvisits : ∀ v ∈ [Visit.search depth, .template depth],
            v.depth ≤ bot.config.recursionLimit := by
          intro v hv
          rcases List.mem_pair.1 hv with rfl | rfl <;> exact hle
        refine ⟨hkeeps, htime, [.search depth, .template depth] ++ visits, ?_,
          horderly.append hvisits⟩
        dsimp only
        rw [hends, Option.map_some, List.append_assoc before, List.append_assoc before]
        rfl

/-! ## Requests -/

/-- With enough levels, the sentences of a request get the answers that they have. -/
theorem exists_tryAnswers {levels : Nat} (hlevels : bot.config.recursionLimit + 2 ≤ levels)
    (sentences : List String) (w : World) (hw : w.Settled clock) :
    ∃ noted, bot.tryAnswers levels sentences w =
        some (noted, ((sentences.mapM bot.answerTop).run w).2) ∧
      noted.map Prod.fst = ((sentences.mapM bot.answerTop).run w).1 ∧
      ∀ note ∈ noted,
        Orderly bot.config.recursionLimit (note.1.cause? = some .recursionLimit) note.2 ∧
          (0 < bot.config.timeout → note.1.cause? ≠ some .timeout) := by
  induction sentences generalizing w with
  | nil => exact ⟨[], rfl, rfl, by simp⟩
  | cons raw rest ih =>
    have htop : (bot.answerTop raw).run w =
        (bot.answer 0 (w.clock + bot.config.timeout) raw).run w := rfl
    -- the first sentence leaves a world in which the others are answered
    obtain ⟨hkeeps, htime, visits, hends, horderly⟩ := @completes_tryAnswer bot 0
      (w.clock + bot.config.timeout) clock levels (by omega) (by omega) raw w [] hw
    rw [List.mapM_cons, run_bind_state, run_bind_state, htop]
    generalize (bot.answer 0 (w.clock + bot.config.timeout) raw).run w = done at *
    obtain ⟨a, w₁⟩ := done
    obtain ⟨noted, hrest, hanswers, hnoted⟩ := ih w₁ hkeeps
    refine ⟨(a, visits) :: noted, ?_, congrArg (a :: ·) hanswers, ?_⟩
    · change bot.tryAnswer levels 0 (w.clock + bot.config.timeout) raw (w, []) = _ at hends
      rw [tryAnswers, hends, List.nil_append]
      show (bot.tryAnswers levels rest w₁).bind _ = _
      rw [hrest]
      rfl
    · refine List.forall_mem_cons.2 ⟨⟨horderly, fun htimeout => htime ?_⟩, hnoted⟩
      rw [hw.clock_left]
      omega

/-- The sentences of a request are begun at the same time, where nothing lets time pass. -/
theorem clock_before_courses {w : World} (hw : w.Settled clock) (sentences : List String) :
    ∀ c ∈ bot.courses sentences w, c.before.clock = clock := by
  obtain ⟨-, -, hrelay, hnoted⟩ := bot.noted_courses sentences w
  have hsettled : ∀ c ∈ bot.courses sentences w, c.before.Settled clock := by
    refine hrelay.forall_before (fun c hc hbefore => ?_) hw
    obtain ⟨hkeeps, -⟩ := @completes_tryAnswer bot 0 (c.before.clock + bot.config.timeout) clock
      (bot.config.recursionLimit + 2) (by omega) (by omega) c.raw c.before [] hbefore
    change ((bot.answerTop c.raw).run c.before).2.Settled clock at hkeeps
    rwa [(hnoted c hc).answered] at hkeeps
  exact fun c hc => (hsettled c hc).clock_left

/-- Where the clock can show the deadline, a request has the reply that it has anyway. -/
theorem run_chat?_of_le {w : World} {last : Nat} (hbuiltIn : w.BuiltIn) (text : String)
    (h : bot.config.splitSentences false text = [] ∨ w.clock + bot.config.timeout ≤ last) :
    (OptionT.run (bot.chat? last text)).run w =
      (some ((bot.chat text).run w).1, ((bot.chat text).run w).2) := by
  have hrequested : (requested text w).Settled w.clock :=
    World.BuiltIn.alike (w := requested text w) hbuiltIn
  refine run_chat?_of_forall fun c hc => ?_
  rcases h with hnone | hle
  · rw [hnone] at hc
    cases hc
  · rwa [clock_before_courses hrequested _ c hc]

/-- Where it cannot, a request with a sentence has none. -/
theorem fst_run_chat?_of_lt {w : World} {last : Nat} {text : String}
    (hsentence : bot.config.splitSentences false text ≠ [])
    (h : last < w.clock + bot.config.timeout) :
    ((OptionT.run (bot.chat? last text)).run w).1 = none := by
  refine fst_run_chat?_eq_none ?_
  -- the first sentence is begun at once
  obtain ⟨raw, rest, hsentences⟩ := List.exists_cons_of_ne_nil hsentence
  obtain ⟨c, hbefore, hcourses⟩ := bot.courses_cons raw rest (requested text w)
  refine ⟨c, ?_, ?_⟩
  · rw [hsentences, hcourses]
    exact List.mem_cons_self
  · rwa [hbefore]

/-- **Every request comes to an end,** in two levels more than the limit of recursion; more levels
make no difference. Each entry of the reply accounts for what was visited, and it is not for want of
time that the request comes to an end.

It comes to an end with its reply and in its world if the clock can show the deadline of a sentence
that is begun now, or if there is no sentence. Otherwise it breaks off. -/
theorem chat_ends {w : World} (hbuiltIn : w.BuiltIn) (text : String) (last : Nat) :
    let sentences := bot.config.splitSentences false text
    let request := (bot.chat text).run w
    let attempt := (OptionT.run (bot.chat? last text)).run w
    (∃ visits,
      (∀ levels, bot.config.recursionLimit + 2 ≤ levels →
        bot.tryChat levels text w = some (request, visits)) ∧
      List.Forall₂ (fun d vs => d.AccountsFor bot.config.recursionLimit vs)
        request.1.details visits ∧
      (0 < bot.config.timeout → ∀ d ∈ request.1.details, d.outcome ≠ .aborted .timeout)) ∧
    (sentences = [] ∨ w.clock + bot.config.timeout ≤ last →
      attempt = (some request.1, request.2)) ∧
    (sentences ≠ [] → last < w.clock + bot.config.timeout → attempt.1 = none) := by
  refine ⟨?_, bot.run_chat?_of_le hbuiltIn text, bot.fst_run_chat?_of_lt⟩
  have hrequested : (requested text w).Settled w.clock :=
    World.BuiltIn.alike (w := requested text w) hbuiltIn
  -- enough levels for every sentence are as many as the limit and two
  obtain ⟨noted, hends, hanswers, hnoted⟩ :=
    exists_tryAnswers (Nat.le_refl _) (bot.config.splitSentences false text) _ hrequested
  change noted.map Prod.fst = ((bot.answersTo text).run (requested text w)).1 at hanswers
  change _ = some (noted, ((bot.answersTo text).run (requested text w)).2) at hends
  have hdetails : ((bot.chat text).run w).1.details = noted.map fun note => note.1.details := by
    rw [fst_run_chat, details_replyOf, ← hanswers, List.map_map]
    rfl
  refine ⟨noted.map Prod.snd, ?_, ?_, ?_⟩
  · intro levels hlevels
    -- more levels than enough change nothing
    refine tryChat_mono hlevels ?_
    rw [tryChat, hends, run_chat]
    show some ((_, _), _) = _
    rw [hanswers]
  · rw [hdetails, List.forall₂_map_left_iff, List.forall₂_map_right_iff, List.forall₂_same]
    intro note hnote
    refine (hnoted note hnote).1.accountsFor ?_
    exact Outcome.cause?_eq_some_iff.symm.trans (by rw [Answer.details, Answer.cause?_outcome])
  · intro htimeout d hd
    rw [hdetails] at hd
    obtain ⟨note, hnote, rfl⟩ := List.mem_map.1 hd
    intro houtcome
    refine (hnoted note hnote).2 htimeout ?_
    rw [← Answer.cause?_outcome]
    exact Outcome.cause?_eq_some_iff.2 houtcome

/-- A category that asks for itself is searched for once more than the limit says, and is evaluated
as often as the limit allows. -/
theorem chat_ends_loop :
    let looping := Samples.bot.withLimit 2
    let request := (looping.chat "loop").run Samples.talkative
    (looping.tryChat 4 "loop" Samples.talkative).map Prod.snd =
        some [[.search 0, .template 0, .search 1, .template 1, .search 2, .template 2, .search 3]] ∧
      (∃ visits,
        (∀ levels, 4 ≤ levels →
          looping.tryChat levels "loop" Samples.talkative = some (request, visits)) ∧
        List.Forall₂ (fun d vs => d.AccountsFor 2 vs) request.1.details visits ∧
        (0 < looping.config.timeout →
          ∀ d ∈ request.1.details, d.outcome ≠ .aborted .timeout)) ∧
      (OptionT.run (looping.chat? lastInstant "loop")).run Samples.talkative =
        (some request.1, request.2) :=
  have h := @chat_ends (Samples.bot.withLimit 2) Samples.talkative Samples.builtIn_talkative "loop"
    lastInstant
  ⟨by decide +kernel, h.1, h.2.1 (Or.inr (by decide +kernel))⟩

/-- **The longest time that can be configured leaves no reply,** although it should be the one that
is never up: no clock can show such a deadline. -/
theorem longest_timeout_breaks_off :
    let patient : Bot :=
      { Samples.bot with config := { Samples.bot.config with timeout := longestTimeout } }
    let request := (patient.chat "hi").run Samples.talkative
    Samples.talkative.BuiltIn ∧ request.1.text = "Hi!" ∧
      (∀ d ∈ request.1.details, d.outcome = .matched) ∧
      ((OptionT.run (patient.chat? lastInstant "hi")).run Samples.talkative).1 = none := by
  intro patient request
  refine ⟨Samples.builtIn_talkative, by decide +kernel, by decide +kernel, ?_⟩
  refine fst_run_chat?_of_lt (by decide +kernel) ?_
  exact Nat.lt_of_lt_of_le lastInstant_lt_longestTimeout (Nat.le_add_left ..)

end Bot

end Parley
