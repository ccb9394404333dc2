import Parley.Proofs.Talk.Course

/-!
# Keeping notes of what is attempted

While a sentence is answered, things are attempted that may have to be given up: searches,
sub-requests, and what elements of the host do. Here the answer is computed once more, and every
attempt is noted at the moment at which it comes to an end, together with the cause for which it was
given up, if it was. The answers and the worlds are those of the computation without notes.

Neither a template nor a script can go on after something was given up. So there is a first note of
this kind, and only the sub-requests that it is inside of follow, with the same cause.

Main results:

* `Tells` — what notes say about the thing as a whole;
* `Bot.noted_noteAnswer` — the notes for a sentence are those of its answer, at every depth;
* `Bot.noted_courses` — the notes for the sentences of a request.
-/

namespace Parley

open Text

/-! ## Notes -/

/-- The kinds of attempts, which may have to be given up. -/
inductive Note.Kind where
  | search (input : Input)
  | subRequest (text : String)
  /-- An element of the host begins a round of a loop, or gives the request up by itself. -/
  | element
  deriving DecidableEq, Repr

/-- An attempt that has come to an end. -/
structure Note where
  /-- How many levels inside sub-requests the attempt was made. -/
  depth : Nat
  kind : Note.Kind
  /-- Why it was given up, if it was. -/
  cause? : Option Abort
  deriving DecidableEq, Repr

/-- A computation that notes its attempts, in the order in which they come to an end. -/
abbrev Noting (σ : Type) := StateM (σ × List Note)

namespace Noting

variable {σ α : Type}

/-- Does something that is no attempt. -/
def doing (x : ExceptT Abort (StateM σ) α) : ExceptT Abort (Noting σ) α :=
  ExceptT.mk fun s =>
    let done := (ExceptT.run x).run s.1
    (done.1, done.2, s.2)

/-- Attempts something and notes what came of it. -/
def attempting (note : Option Abort → Note) (x : ExceptT Abort (Noting σ) α) :
    ExceptT Abort (Noting σ) α :=
  ExceptT.mk fun s =>
    let done := (ExceptT.run x).run s
    (done.1, done.2.1, done.2.2 ++ [note (causeOf? done.1)])

/-- The text of an answer to a sub-request. -/
def answered (a : Noting World (Except Abort String)) : ExceptT Abort (Noting Run) String :=
  ExceptT.mk fun s =>
    let done := a.run (s.1.world, s.2)
    (done.1, { s.1 with world := done.2.1 }, done.2.2)

end Noting

namespace Frame

variable (f : Frame) (ask : String → Noting World (Except Abort String))

/-- The note of a sub-request, which is answered one level deeper. -/
def requestNote (text : String) (cause? : Option Abort) : Note :=
  ⟨f.depth + 1, .subRequest text, cause?⟩

/-- Answers a text as a sub-request, and notes it. -/
def noteRequest (text : String) : ExceptT Abort (Noting Run) String :=
  Noting.attempting (f.requestNote text) do
    Noting.doing f.checkTime
    Noting.doing (Evaluation.session (Session.report (.subRequest (f.depth + 1) text)))
    Noting.answered (ask text)

/-- What an element of the host does that may have to be given up. -/
def noteElement {α : Type} (x : Evaluation α) : ExceptT Abort (Noting Run) α :=
  Noting.attempting (fun cause? => ⟨f.depth, .element, cause?⟩) (Noting.doing x)

/-- What elements of the host can do in a frame, with notes. -/
def noteHostCommands : HostCommands (ExceptT Abort (Noting Run)) where
  abort cause := f.noteElement (throw cause)
  look := Noting.doing do return f.view (← get)
  beginRound round := f.noteElement (f.checkLoop round)
  request := f.noteRequest ask
  assign name value scope := Noting.doing (f.assign name value scope)
  learn learner markup := Noting.doing (f.learn learner markup)
  wait time := Noting.doing <|
    modify fun r => { r with world := { r.world with clock := r.world.clock + time } }

/-- What templates can do in a frame, with notes. -/
def noteCommands : Commands (ExceptT Abort (Noting Run)) where
  star := f.star
  lookup name scope := Noting.doing (f.lookup name scope)
  assign name value scope := Noting.doing (f.assign name value scope)
  request := f.noteRequest ask
  host element content :=
    match f.bot.registry.get? element.name with
    | some known => (known.script element).interpret (f.noteHostCommands ask) content
    | none => content

end Frame

namespace Bot

/-- Answers a text as a sub-request, with notes, in the way in which its sentences are answered. -/
def noteSubRequest (bot : Bot) (answer : String → Noting World Answer) (text : String) :
    Noting World (Except Abort String) :=
  ExceptT.run do
    let outputs ← (bot.config.splitSentences false text).mapM fun s =>
      ExceptT.mk (Answer.result <$> answer s)
    return joinOutputs outputs

/-- Answers a sentence, with notes, `depth` levels inside sub-requests. -/
def noteAnswer (bot : Bot) (depth deadline : Nat) (raw : String) : Noting World Answer :=
  fun (w, before) =>
    let sentence := bot.config.normalize raw
    let input := bot.inputAt sentence w
    let w₁ := bot.searched depth deadline sentence w
    let searching (cause? : Option Abort) : Note := ⟨depth, .search input, cause?⟩
    match _h : (bot.searchAt depth deadline sentence w).result with
    | .error cause =>
      ({ sentence, input, matched? := none, result := .error cause }, w₁,
        before ++ [searching (some cause)])
    | .ok none =>
      ({ sentence, input, matched? := none, result := .ok bot.config.defaultResponse },
        ((Session.report (.noMatch w.user.id input.render)).run w₁).2,
        before ++ [searching none])
    | .ok (some found) =>
      let w₂ := ((Session.report (matchEvent found)).run w₁).2
      let commands := (bot.frameOf depth deadline sentence found).noteCommands
        (bot.noteSubRequest (bot.noteAnswer (depth + 1) deadline))
      let evaluated := (ExceptT.run (Part.interpretAll commands found.entry.content)).run
        ({ world := w₂ }, before ++ [searching none])
      ({ sentence, input, matched? := some (found.path, originOf found), result := evaluated.1 },
        evaluated.2.1.world, evaluated.2.2)
termination_by bot.config.recursionLimit + 1 - depth
decreasing_by
  have hdepth := depth_le_of_searchAt _h
  omega

end Bot

/-! ## What notes tell -/

/-- Whether a note is one of a sub-request. -/
def Note.IsRequest (n : Note) : Prop := ∃ text, n.kind = .subRequest text

/-- Whether a note, if it is one of a search, says that the search was made with a text as what the
bot said last. -/
def Note.IsAbout (that : String) (n : Note) : Prop :=
  ∀ input, n.kind = .search input → input.that = words that

/-- What notes tell about the thing they were kept of: that it was not given up, or for which cause.
Behind the note of what was given up first are only those of the sub-requests around it. -/
inductive Tells : Option Abort → List Note → Prop where
  | done {notes : List Note} : (∀ n ∈ notes, n.cause? = none) → Tells none notes
  | abort {passed around : List Note} {first : Note} {cause : Abort} :
      (∀ n ∈ passed, n.cause? = none) → first.cause? = some cause →
      (∀ n ∈ around, n.cause? = some cause ∧ n.IsRequest) →
      Tells (some cause) (passed ++ first :: around)

namespace Tells

variable {cause? : Option Abort} {notes passed : List Note} {n : Note}

/-- What is not given up leaves no note of a cause. -/
theorem cause?_eq_none (h : Tells none notes) : ∀ n ∈ notes, n.cause? = none := by
  cases h with
  | done hnotes => exact hnotes

/-- A note of something that was given up tells for which cause the whole was given up. -/
theorem cause?_eq (h : Tells cause? notes) (hn : n ∈ notes) {cause : Abort}
    (hcause : n.cause? = some cause) : cause? = some cause := by
  cases h with
  | done hnotes =>
    rw [hnotes n hn] at hcause
    cases hcause
  | @abort passed around first cause' hpassed hfirst haround =>
    rw [← hcause]
    rcases List.mem_append.1 hn with hn | hn
    · rw [hpassed n hn] at hcause
      cases hcause
    · rcases List.mem_cons.1 hn with rfl | hn
      · exact hfirst.symm
      · exact (haround n hn).1.symm

/-- What is given up leaves a note of the cause. -/
theorem exists_cause? {cause : Abort} (h : Tells (some cause) notes) :
    ∃ n ∈ notes, n.cause? = some cause := by
  cases h with
  | @abort passed around first _ _ hfirst _ =>
    exact ⟨first, List.mem_append_right _ List.mem_cons_self, hfirst⟩

/-- Notes of what was done before tell nothing else. -/
theorem after (hpassed : ∀ n ∈ passed, n.cause? = none) (h : Tells cause? notes) :
    Tells cause? (passed ++ notes) := by
  have hboth : ∀ {others : List Note}, (∀ n ∈ others, n.cause? = none) →
      ∀ n ∈ passed ++ others, n.cause? = none := by
    intro others hothers n hn
    rcases List.mem_append.1 hn with hn | hn
    · exact hpassed n hn
    · exact hothers n hn
  cases h with
  | done hnotes => exact .done (hboth hnotes)
  | abort hbefore hfirst haround =>
    rw [← List.append_assoc]
    exact .abort (hboth hbefore) hfirst haround

/-- A single attempt tells its own cause. -/
theorem single (hcause : n.cause? = cause?) : Tells cause? [n] := by
  cases cause? with
  | none => exact .done (fun m hm => by rw [List.mem_singleton.1 hm, hcause])
  | some cause => exact @Tells.abort [] [] n cause (by simp) hcause (by simp)

/-- A sub-request is given up for the cause for which something inside it was. -/
theorem around (h : Tells cause? notes) (hcause : n.cause? = cause?) (hn : n.IsRequest) :
    Tells cause? (notes ++ [n]) := by
  cases h with
  | done hnotes => exact .after hnotes (.single hcause)
  | @abort passed around first cause hpassed hfirst haround =>
    rw [List.append_assoc, List.cons_append]
    refine .abort hpassed hfirst fun m hm => ?_
    rcases List.mem_append.1 hm with hm | hm
    · exact haround m hm
    · rw [List.mem_singleton.1 hm]
      exact ⟨hcause, hn⟩

/-- Behind a note of something that was given up, there are only those of the sub-requests around
it. -/
theorem isRequest_of_behind {earlier later : List Note} {cause : Abort}
    (h : Tells cause? (earlier ++ n :: later)) (hcause : n.cause? = some cause) :
    ∀ m ∈ later, m.cause? = some cause ∧ m.IsRequest := by
  generalize hnotes : earlier ++ n :: later = notes at h
  have hwhole := h.cause?_eq (n := n) (by rw [← hnotes]; simp) hcause
  cases h with
  | done _ => cases hwhole
  | @abort passed around first cause' hpassed hfirst haround =>
    obtain rfl := Option.some.inj hwhole
    -- nothing was given up before the first note of this kind
    rcases List.append_eq_append_iff.1 hnotes with
      ⟨between, hbefore, hlater⟩ | ⟨between, hbefore, hlater⟩
    · cases between with
      | nil =>
        obtain ⟨-, rfl⟩ := List.cons.inj hlater
        exact haround
      | cons m between =>
        obtain ⟨rfl, -⟩ := List.cons.inj hlater
        rw [hpassed n (by rw [hbefore]; simp)] at hcause
        cases hcause
    · cases between with
      | nil =>
        obtain ⟨-, rfl⟩ := List.cons.inj hlater
        exact haround
      | cons m between =>
        obtain ⟨-, rfl⟩ := List.cons.inj hlater
        exact fun m hm => haround m (by simp [hm])

end Tells

/-! ## Notes of a computation -/

/-- Whether notes were kept of a computation: with them it has the same result and leads to the same
state, what has to be kept is kept, the notes tell why the result stands for giving up, if it does,
and all searches were made with the same text as what the bot said last. -/
structure Noted {σ β : Type} (that : String) (keeps : σ → Prop) (cause? : β → Option Abort)
    (before : List Note) (x : β × σ) (y : β × σ × List Note) : Prop where
  keeps : keeps x.2
  noted : ∃ notes, y = (x.1, x.2, before ++ notes) ∧ Tells (cause? x.1) notes ∧
    ∀ n ∈ notes, n.IsAbout that

/-- Notes are kept step by step. -/
def Simulation.noting (that : String) {σ : Type} (keeps : σ → Prop) :
    Simulation (ExceptT Abort (StateM σ)) (ExceptT Abort (Noting σ)) where
  rel x y := ∀ s before, keeps s →
    Noted that keeps causeOf? before ((ExceptT.run x).run s) ((ExceptT.run y).run (s, before))
  rel_pure a := by
    intro s before hs
    refine ⟨hs, [], ?_, .done (by simp), by simp⟩
    rw [List.append_nil]
    rfl
  rel_bind := by
    intro α β x y f g hxy hfg s before hs
    obtain ⟨hkeeps, notes, hrun, htells, habout⟩ := hxy s before hs
    rw [run_bind_eq, run_bind_eq, hrun]
    generalize (ExceptT.run x).run s = done at hkeeps htells ⊢
    obtain ⟨result, s'⟩ := done
    cases result with
    | error cause =>
      -- what comes second is left out on both sides
      exact ⟨hkeeps, notes, rfl, htells, habout⟩
    | ok a =>
      obtain ⟨hkeeps', notes', hrun', htells', habout'⟩ := hfg a s' (before ++ notes) hkeeps
      refine ⟨hkeeps', notes ++ notes', ?_, htells'.after htells.cause?_eq_none, ?_⟩
      · rw [← List.append_assoc]
        exact hrun'
      · intro n hn
        rcases List.mem_append.1 hn with hn | hn
        · exact habout n hn
        · exact habout' n hn

section Noting

variable {that : String} {σ α : Type} {keeps : σ → Prop} {x : ExceptT Abort (StateM σ) α}

/-- What is no attempt needs no note, because it is not given up. -/
theorem Simulation.noting_doing (hkeeps : ∀ s, keeps s → keeps ((ExceptT.run x).run s).2)
    (hok : ∀ s, ∃ a, ((ExceptT.run x).run s).1 = .ok a) :
    (Simulation.noting that keeps).rel x (Noting.doing x) := by
  intro s before hs
  refine ⟨hkeeps s hs, [], ?_, ?_, by simp⟩
  · rw [List.append_nil]
    rfl
  · obtain ⟨a, ha⟩ := hok s
    rw [ha]
    exact .done (by simp)

end Noting

/-! ## Templates and scripts -/

/-- Whether `that` is what was said last. -/
abbrev World.Keeps (that : String) (w : World) : Prop := w.user.that = that

/-- Whether `that` is what was said last. -/
abbrev Run.Keeps (that : String) (r : Run) : Prop := r.world.Keeps that

/-- An evaluation does not change what was said last. -/
theorem Evaluation.Evolves.keeps {bot : Bot} {α : Type} {e : Evaluation α}
    (h : Evaluation.Evolves bot e) {that : String} (r : Run) (hr : r.Keeps that) :
    ((ExceptT.run e).run r).2.Keeps that :=
  (h r).that_eq.trans hr

/-- Whether notes are kept of the answers to sub-requests. -/
def RequestsNoted (that : String) (ask : Answerer)
    (ask' : String → Noting World (Except Abort String)) : Prop :=
  ∀ text w before, w.Keeps that →
    Noted that (World.Keeps that) causeOf? before ((ask text).run w)
      ((ask' text).run (w, before))

/-- The simulation for what is done while a template is evaluated. -/
abbrev Simulation.notingRuns (that : String) :
    Simulation Evaluation (ExceptT Abort (Noting Run)) :=
  Simulation.noting that (Run.Keeps that)

namespace Frame

variable {that : String} {f : Frame} {ask : Answerer}
  {ask' : String → Noting World (Except Abort String)} {α : Type} {x : Evaluation α}

theorem noting_doing (f : Frame) (hevolves : Evaluation.Evolves f.bot x)
    (hok : ∀ r, ∃ a, ((ExceptT.run x).run r).1 = .ok a) :
    (Simulation.notingRuns that).rel x (Noting.doing x) :=
  Simulation.noting_doing hevolves.keeps hok

theorem noting_assign (name value : String) (scope : Scope) :
    (Simulation.notingRuns that).rel (f.assign name value scope)
      (Noting.doing (f.assign name value scope)) := by
  refine f.noting_doing (evolves_assign name value scope) ?_
  intro r
  cases scope <;> exact ⟨_, rfl⟩

/-- Whatever an element of the host does leaves its own note. -/
theorem noting_element (f : Frame) (hevolves : Evaluation.Evolves f.bot x) :
    (Simulation.notingRuns that).rel x (f.noteElement x) := by
  intro r before hr
  let n : Note := ⟨f.depth, .element, causeOf? ((ExceptT.run x).run r).1⟩
  refine ⟨hevolves.keeps r hr, [n], rfl, .single rfl, ?_⟩
  intro m hm input hkind
  rw [List.mem_singleton.1 hm] at hkind
  cases hkind

/-- A sub-request is noted when its answer is known, or when it is not begun. -/
theorem run_noteRequest (text : String) (r : Run) (before : List Note) :
    (ExceptT.run (f.noteRequest ask' text)).run (r, before) =
      if f.deadline ≤ r.world.clock then
        (.error .timeout,
          { r with
            world :=
              ((Session.report (.templateTimeout r.world.user.id f.sentence)).run r.world).2 },
          before ++ [f.requestNote text (some .timeout)])
      else
        let answered := (ask' text).run
          (((Session.report (.subRequest (f.depth + 1) text)).run r.world).2, before)
        (answered.1, { r with world := answered.2.1 },
          answered.2.2 ++ [f.requestNote text (causeOf? answered.1)]) := by
  -- the request runs as it does without notes; the note of it is taken at the end, when its result
  -- is known
  have hrun : (ExceptT.run (f.noteRequest ask' text)).run (r, before) =
      let done := (ExceptT.run (do
        Noting.doing f.checkTime
        Noting.doing (Evaluation.session (Session.report (.subRequest (f.depth + 1) text)))
        Noting.answered (ask' text))).run (r, before)
      (done.1, done.2.1, done.2.2 ++ [f.requestNote text (causeOf? done.1)]) := rfl
  have hcheck : (ExceptT.run (Noting.doing f.checkTime)).run (r, before) =
      let done := (ExceptT.run f.checkTime).run r
      (done.1, done.2, before) := rfl
  rw [hrun, run_bind_eq, hcheck, run_checkTime]
  by_cases h : f.deadline ≤ r.world.clock
  · rw [if_pos h, if_pos h]
    rfl
  · rw [if_neg h, if_neg h]
    rfl

/-- A sub-request leaves the notes of its answer and its own. -/
theorem noting_request (hask : RequestsNoted that ask ask') (text : String) :
    (Simulation.notingRuns that).rel (f.request ask text) (f.noteRequest ask' text) := by
  intro r before hr
  have hnote : ∀ cause?, (f.requestNote text cause?).IsAbout that := by
    intro cause? input hkind
    cases hkind
  rw [run_request, run_noteRequest]
  -- too late, the request is noted without an answer to it
  by_cases htime : f.deadline ≤ r.world.clock
  · rw [if_pos htime, if_pos htime]
    refine ⟨hr, [f.requestNote text (some .timeout)], rfl, .single rfl, ?_⟩
    intro n hn
    rw [List.mem_singleton.1 hn]
    exact hnote _
  · rw [if_neg htime, if_neg htime]
    dsimp only
    obtain ⟨hkeeps, notes, hrun, htells, habout⟩ :=
      hask text ((Session.report (.subRequest (f.depth + 1) text)).run r.world).2 before hr
    rw [hrun]
    generalize (ask text).run _ = answered at hkeeps htells ⊢
    refine ⟨hkeeps, notes ++ [f.requestNote text (causeOf? answered.1)], ?_, ?_, ?_⟩
    · rw [← List.append_assoc]
    · exact htells.around rfl ⟨text, rfl⟩
    · intro n hn
      rcases List.mem_append.1 hn with hn | hn
      · exact habout n hn
      · rw [List.mem_singleton.1 hn]
        exact hnote _

/-- Notes are kept of what elements of the host do if they are kept of their sub-requests. -/
theorem noting_hostCommands (hask : RequestsNoted that ask ask') :
    (Simulation.notingRuns that).RelHostCommands (f.hostCommands ask)
      (f.noteHostCommands ask') where
  abort cause := f.noting_element (Evaluation.evolves_throw cause)
  look := by
    refine f.noting_doing ?_ fun r => ⟨_, rfl⟩
    exact Evaluation.evolves_get.bind fun r => Evaluation.evolves_pure (f.view r)
  beginRound round := f.noting_element (evolves_checkLoop round)
  request := noting_request hask
  assign := noting_assign
  learn learner markup := by
    refine f.noting_doing (evolves_learn learner markup) ?_
    intro r
    -- a category that cannot be read is reported to the host and gives up nothing
    show ∃ existing?, ((ExceptT.run (f.learn learner markup)).run r).1 = .ok existing?
    unfold learn
    split
    · exact ⟨_, rfl⟩
    · cases learner <;> exact ⟨_, rfl⟩
  wait time := by
    refine f.noting_doing (Evaluation.evolves_modify fun r => ?_) fun r => ⟨_, rfl⟩
    exact .single (.wait r.world time)

/-- Notes are kept of what templates do if they are kept of their sub-requests. -/
theorem noting_commands (hask : RequestsNoted that ask ask') :
    (Simulation.notingRuns that).RelCommands (f.commands ask) (f.noteCommands ask') where
  star := rfl
  lookup name scope := by
    refine f.noting_doing (evolves_lookup name scope) ?_
    intro r
    cases scope <;> exact ⟨_, rfl⟩
  assign := noting_assign
  request := noting_request hask

/-- Elements of the host are no exception, whatever their scripts are. -/
theorem noting_host (hask : RequestsNoted that ask ask') :
    (Simulation.notingRuns that).RelHost (f.commands ask) (f.noteCommands ask') := by
  intro element x y hcontent
  unfold commands noteCommands
  dsimp only
  cases f.bot.registry.get? element.name with
  | none => exact hcontent
  | some known =>
    dsimp only
    rw [Script.run_eq_interpret]
    exact Simulation.script (noting_hostCommands hask) hcontent _

end Frame

/-! ## Sub-requests and sentences -/

namespace Bot

variable {bot : Bot} {depth deadline : Nat} {that : String}

/-- A sub-request is noted if its sentences are. -/
theorem noted_noteSubRequest {answer : String → Noting World Answer}
    (hanswer : ∀ raw w before, w.Keeps that → Noted that (World.Keeps that) Answer.cause? before
      ((bot.answer depth deadline raw).run w) ((answer raw).run (w, before))) :
    RequestsNoted that (bot.subRequest depth deadline) (bot.noteSubRequest answer) := by
  intro text w before hw
  rw [run_subRequest, noteSubRequest]
  let S := Simulation.noting that (World.Keeps that)
  have hsentences : S.rel
      ((bot.config.splitSentences false text).mapM fun s =>
        responding (bot.answer depth deadline s))
      ((bot.config.splitSentences false text).mapM fun s =>
        ExceptT.mk (Answer.result <$> answer s)) := by
    -- the sentences of the request are answered one after the other, each with its own notes
    refine Simulation.mapM (fun raw => ?_) _
    intro v before hv
    obtain ⟨hkeeps, notes, hrun, htells, habout⟩ := hanswer raw v before hv
    have hresult : (ExceptT.run (ExceptT.mk (Answer.result <$> answer raw))).run (v, before) =
        let done := (answer raw).run (v, before)
        (done.1.result, done.2) := rfl
    rw [run_responding, hresult, hrun]
    exact ⟨hkeeps, notes, rfl, htells, habout⟩
  exact S.rel_bind hsentences (fun outputs => S.rel_pure (joinOutputs outputs)) w before hw

/-- The evaluation of a template is noted if its sub-requests are. -/
theorem noted_evaluating {sentence : String} {found : Found Template}
    {ask : String → Noting World (Except Abort String)}
    (hask : RequestsNoted that (bot.subRequest (depth + 1) deadline) ask) :
    (Simulation.notingRuns that).rel (bot.evaluating depth deadline sentence found)
      (Part.interpretAll ((bot.frameOf depth deadline sentence found).noteCommands ask)
        found.entry.content) :=
  Simulation.interpretAll (Frame.noting_commands hask) found.entry.content
    (Or.inr (Frame.noting_host hask))

/-- **The notes for a sentence are those of its answer,** at every depth. -/
theorem noted_noteAnswer (depth deadline : Nat) (raw : String) (w : World) (before : List Note)
    (hw : w.Keeps that) :
    Noted that (World.Keeps that) Answer.cause? before ((bot.answer depth deadline raw).run w)
      ((bot.noteAnswer depth deadline raw).run (w, before)) := by
  -- induction on the levels that are left; a search that is not given up has one left
  induction hlevels : bot.config.recursionLimit + 1 - depth using Nat.strongRecOn
    generalizing depth raw w before with
  | _ levels ih =>
    subst hlevels
    have hkeeps : ((bot.answer depth deadline raw).run w).2.Keeps that :=
      (evolves_answer depth deadline raw w).that_eq.trans hw
    refine ⟨hkeeps, ?_⟩
    -- the search is noted first, and it is about what was said last
    have habout : ∀ cause?, Note.IsAbout that
        ⟨depth, .search (bot.inputAt (bot.config.normalize raw) w), cause?⟩ := by
      intro cause? input hkind
      obtain rfl := Note.Kind.search.inj hkind
      rw [inputAt_eq, hw]
      rfl
    clear hkeeps
    rw [run_answer]
    show ∃ notes, bot.noteAnswer depth deadline raw (w, before) = _ ∧ _
    rw [noteAnswer]
    generalize bot.config.normalize raw = sentence at habout ⊢
    dsimp only
    split
    · next cause h =>
      rw [h]
      refine ⟨[_], rfl, .single rfl, ?_⟩
      intro n hn
      rw [List.mem_singleton.1 hn]
      exact habout _
    · next h =>
      rw [h]
      refine ⟨[_], rfl, .single rfl, ?_⟩
      intro n hn
      rw [List.mem_singleton.1 hn]
      exact habout _
    · next found h =>
      rw [h]
      dsimp only
      -- the search was not nested too deep, so that its sub-requests have fewer levels left
      have hdepth := depth_le_of_searchAt h
      have hask : RequestsNoted that (bot.subRequest (depth + 1) deadline)
          (bot.noteSubRequest (bot.noteAnswer (depth + 1) deadline)) := by
        refine noted_noteSubRequest ?_
        intro raw v before hv
        exact ih _ (by omega) (depth + 1) raw v before hv rfl
      let searching : Note := ⟨depth, .search (bot.inputAt sentence w), none⟩
      let w₂ := ((Session.report (matchEvent found)).run
        (bot.searched depth deadline sentence w)).2
      have hw₂ : w₂.Keeps that := by
        show (bot.prepared w).user.that = that
        rw [user_prepared, hw]
      obtain ⟨-, notes, hrun, htells, hnotes⟩ :=
        @noted_evaluating bot depth deadline that sentence found _ hask { world := w₂ }
          (before ++ [searching]) hw₂
      rw [hrun]
      refine ⟨searching :: notes, ?_, ?_, ?_⟩
      · rw [List.append_assoc, List.singleton_append]
      · refine @Tells.after _ _ [searching] ?_ htells
        intro n hn
        rw [List.mem_singleton.1 hn]
      · exact List.forall_mem_cons.2 ⟨habout _, hnotes⟩

end Bot

/-! ## The sentences of a request -/

/-- How a sentence of a request is answered. -/
structure Course where
  /-- The sentence as it was split off. -/
  raw : String
  before : World
  answer : Answer
  notes : List Note
  after : World

/-- Whether each sentence is answered in the world that its predecessor left. -/
inductive Relay : World → List Course → World → Prop where
  | stay (w : World) : Relay w [] w
  | hand {c : Course} {rest : List Course} {w : World} :
      Relay c.after rest w → Relay c.before (c :: rest) w

/-- What holds of a world and is kept by every answer holds before each. -/
theorem Relay.forall_before {I : World → Prop} {courses : List Course} {w w' : World}
    (hrelay : Relay w courses w') (hkeeps : ∀ c ∈ courses, I c.before → I c.after) (hw : I w) :
    ∀ c ∈ courses, I c.before := by
  induction hrelay with
  | stay w => simp
  | hand _ ih =>
    rw [List.forall_mem_cons] at hkeeps ⊢
    exact ⟨hw, ih hkeeps.2 (hkeeps.1 hw)⟩

namespace Bot

/-- Answers sentences one after the other, with notes, each in its own time. -/
def courses (bot : Bot) : List String → World → List Course
  | [], _ => []
  | raw :: rest, w =>
    let answered := (bot.noteAnswer 0 (w.clock + bot.config.timeout) raw).run (w, [])
    { raw, before := w, answer := answered.1, notes := answered.2.2, after := answered.2.1 } ::
      bot.courses rest answered.2.1

/-- Whether the notes for a sentence were kept of its answer, with `that` as what was said last. -/
structure Noted (bot : Bot) (that : String) (c : Course) : Prop where
  answered : (bot.answerTop c.raw).run c.before = (c.answer, c.after)
  tells : Tells c.answer.cause? c.notes
  isAbout : ∀ n ∈ c.notes, n.IsAbout that

variable {bot : Bot} {that : String}

/-- **The notes for the sentences of a request** are those of their answers, and all searches are
made with the same text as what was said last. -/
theorem noted_courses (bot : Bot) (sentences : List String) (w : World) :
    (bot.courses sentences w).map Course.raw = sentences ∧
      (bot.courses sentences w).map Course.answer = ((sentences.mapM bot.answerTop).run w).1 ∧
      Relay w (bot.courses sentences w) ((sentences.mapM bot.answerTop).run w).2 ∧
      ∀ c ∈ bot.courses sentences w, bot.Noted w.user.that c := by
  -- what the user was told last is the same for all sentences: replies are recorded at the end
  generalize hw : w.user.that = that
  induction sentences generalizing w with
  | nil => exact ⟨rfl, rfl, .stay w, by simp [courses]⟩
  | cons raw rest ih =>
    have htop : (bot.answerTop raw).run w =
        (bot.answer 0 (w.clock + bot.config.timeout) raw).run w := rfl
    obtain ⟨hkeeps, notes, hrun, htells, habout⟩ :=
      bot.noted_noteAnswer 0 (w.clock + bot.config.timeout) raw w [] hw
    rw [List.nil_append] at hrun
    rw [courses, hrun, run_mapM_cons, htop]
    obtain ⟨hraws, hanswers, hrelay, hnoted⟩ := ih _ hkeeps
    generalize (bot.answer 0 (w.clock + bot.config.timeout) raw).run w = done at *
    -- the world that this sentence leaves is the one that the next finds
    let c : Course := { raw, before := w, answer := done.1, notes, after := done.2 }
    refine ⟨congrArg (raw :: ·) hraws, congrArg (done.1 :: ·) hanswers,
      @Relay.hand c _ _ hrelay, ?_⟩
    exact List.forall_mem_cons.2 ⟨⟨htop, htells, habout⟩, hnoted⟩

end Bot

end Parley
