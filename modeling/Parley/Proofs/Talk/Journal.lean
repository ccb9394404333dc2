import Parley.Proofs.Assignments
import Parley.Proofs.Talk.Course

/-!
# A journal of variables

A variable lives as long as the evaluation of the template for a sentence. To say which of all
assignments it gives back, a journal is kept beside the state, across sub-requests, sentences and
requests: when an evaluation begins, when one of its variables is given a value and when one is
looked up. Acts are marked with the evaluation that they are done in, and evaluations are told apart
by where in the journal they begin.

Main results:

* `Act.Fits` — what an act may be, by the acts before it;
* `Since.assignedIn_eq` — evaluations that begin later assign nothing in one that has begun;
* `Bot.journalAnswer`, `Bot.journalChat` — sentences and requests are answered with a journal;
* `Simulation.journaling` — a journal goes side by side with what it is kept of.
-/

namespace Parley

open Text

/-! ## Acts -/

/-- What is written down. -/
inductive Act.Kind where
  /-- The evaluation of the template for a sentence begins, `depth` levels inside sub-requests. -/
  | begins (depth : Nat) (sentence : String)
  | assigns (name value : String)
  | looksUp (name value : String)
  deriving DecidableEq, Repr

/-- What is done in an evaluation. -/
structure Act where
  /-- The number of acts before the evaluation began, which tells it from all others. -/
  evaluation : Nat
  kind : Act.Kind
  deriving DecidableEq, Repr

/-- The assignment that an act is in an evaluation, if it is one. -/
def Act.assigned? (evaluation : Nat) (a : Act) : Option (String × String) :=
  match a.kind with
  | .assigns name value => if a.evaluation = evaluation then some (name, value) else none
  | _ => none

/-- What was assigned in an evaluation, in order. -/
def assignedIn (evaluation : Nat) (acts : List Act) : List (String × String) :=
  acts.filterMap (Act.assigned? evaluation)

/-- Whether an evaluation has begun. -/
def Begun (acts : List Act) (evaluation : Nat) : Prop :=
  ∃ depth sentence, acts[evaluation]? = some ⟨evaluation, .begins depth sentence⟩

/-- Whether an act may be done after others: an evaluation gets the number of the acts before it,
and in an evaluation that has begun, a variable has the value that was assigned last. -/
inductive Act.Fits (config : Config) (before : List Act) : Act → Prop where
  | begins (depth : Nat) (sentence : String) :
      Fits config before ⟨before.length, .begins depth sentence⟩
  | assigns {evaluation : Nat} (name value : String) : Begun before evaluation →
      Fits config before ⟨evaluation, .assigns name value⟩
  | looksUp {evaluation : Nat} (name : String) : Begun before evaluation →
      Fits config before ⟨evaluation, .looksUp name
        ((config.comparer.latest? (assignedIn evaluation before) name).getD
          config.defaultPredicate)⟩

/-- Whether each act fits those before it. -/
def Fitting (config : Config) (acts : List Act) : Prop :=
  ∀ before a after, acts = before ++ a :: after → a.Fits config before

section Fitting

variable {config : Config} {acts more : List Act} {a : Act} {evaluation : Nat}

theorem Begun.lt (h : Begun acts evaluation) : evaluation < acts.length := by
  obtain ⟨depth, sentence, hact⟩ := h
  exact (List.getElem?_eq_some_iff.1 hact).1

theorem Begun.append (h : Begun acts evaluation) (more : List Act) :
    Begun (acts ++ more) evaluation := by
  obtain ⟨depth, sentence, hact⟩ := h
  refine ⟨depth, sentence, ?_⟩
  rw [List.getElem?_append_left (List.getElem?_eq_some_iff.1 hact).1, hact]

theorem fitting_nil (config : Config) : Fitting config [] := by
  intro before a after h
  simp at h

theorem Fitting.concat (h : Fitting config acts) (ha : a.Fits config acts) :
    Fitting config (acts ++ [a]) := by
  intro before b after hacts
  -- an act of the longer journal is the last one, or it was there before
  rcases List.eq_nil_or_concat after with rfl | ⟨after, last, rfl⟩
  · obtain ⟨rfl, hlast⟩ := List.append_inj' hacts rfl
    obtain rfl := List.singleton_inj.1 hlast
    exact ha
  · rw [List.concat_eq_append, ← List.cons_append, ← List.append_assoc] at hacts
    exact h before b after (List.append_inj' hacts rfl).1

/-- Acts are of evaluations that began before. -/
theorem Fitting.evaluation_lt (h : Fitting config acts) (ha : a ∈ acts) :
    a.evaluation < acts.length := by
  obtain ⟨before, after, rfl⟩ := List.append_of_mem ha
  have hle : a.evaluation ≤ before.length := by
    cases h before a after rfl with
    | begins depth sentence => exact Nat.le_refl _
    | assigns name value hbegun => exact Nat.le_of_lt hbegun.lt
    | looksUp name hbegun => exact Nat.le_of_lt hbegun.lt
  rw [List.length_append, List.length_cons]
  omega

theorem assignedIn_append (evaluation : Nat) (acts more : List Act) :
    assignedIn evaluation (acts ++ more) =
      assignedIn evaluation acts ++ assignedIn evaluation more :=
  List.filterMap_append

/-- Acts of other evaluations are no assignments in this one. -/
theorem assignedIn_eq_nil (h : ∀ a ∈ acts, a.evaluation ≠ evaluation) :
    assignedIn evaluation acts = [] := by
  refine List.filterMap_eq_nil_iff.2 fun a ha => ?_
  obtain ⟨e, kind⟩ := a
  cases kind with
  | begins depth sentence => rfl
  | assigns name value => exact if_neg (h _ ha)
  | looksUp name value => rfl

end Fitting

/-- Whether a journal was continued with acts that fit, of evaluations that began from then on. -/
structure Since (config : Config) (start acts : List Act) : Prop where
  fitting : Fitting config acts
  later : ∃ more, acts = start ++ more ∧ ∀ a ∈ more, start.length ≤ a.evaluation

namespace Since

variable {config : Config} {start acts others : List Act} {a : Act} {evaluation : Nat}

theorem refl (h : Fitting config acts) : Since config acts acts where
  fitting := h
  later := ⟨[], by simp, by simp⟩

theorem trans (h : Since config start acts) (h' : Since config acts others) :
    Since config start others where
  fitting := h'.fitting
  later := by
    obtain ⟨more, rfl, hmore⟩ := h.later
    obtain ⟨more', rfl, hmore'⟩ := h'.later
    refine ⟨more ++ more', List.append_assoc .., ?_⟩
    intro a ha
    rcases List.mem_append.1 ha with ha | ha
    · exact hmore a ha
    · -- what is added last is of evaluations that begin even later
      have hle := hmore' a ha
      rw [List.length_append] at hle
      omega

theorem concat (h : Since config start acts) (ha : a.Fits config acts)
    (hlater : start.length ≤ a.evaluation) : Since config start (acts ++ [a]) where
  fitting := h.fitting.concat ha
  later := by
    obtain ⟨more, rfl, hmore⟩ := h.later
    refine ⟨more ++ [a], List.append_assoc .., ?_⟩
    intro b hb
    rcases List.mem_append.1 hb with hb | hb
    · exact hmore b hb
    · rw [List.mem_singleton.1 hb]
      exact hlater

theorem begun (h : Since config start acts) (hbegun : Begun start evaluation) :
    Begun acts evaluation := by
  obtain ⟨more, rfl, -⟩ := h.later
  exact hbegun.append more

/-- What happens in evaluations that begin later is no assignment in one that has begun. -/
theorem assignedIn_eq (h : Since config start acts) (hbegun : Begun start evaluation) :
    assignedIn evaluation acts = assignedIn evaluation start := by
  obtain ⟨more, rfl, hmore⟩ := h.later
  have hother : assignedIn evaluation more = [] := by
    refine assignedIn_eq_nil fun a ha heq => ?_
    have hle := hmore a ha
    have hlt := hbegun.lt
    omega
  rw [assignedIn_append, hother, List.append_nil]

end Since

/-! ## Keeping a journal -/

/-- A computation that keeps a journal beside its state. -/
abbrev Journaling (σ : Type) := StateM (σ × List Act)

namespace Journaling

variable {σ α : Type}

/-- Does something that the journal is not about. -/
def doing (x : StateM σ α) : Journaling σ α := fun s =>
  let done := x.run s.1
  (done.1, done.2, s.2)

/-- Does something that the journal is not about and that may have to be given up. -/
def trying (x : ExceptT Abort (StateM σ) α) : ExceptT Abort (Journaling σ) α :=
  ExceptT.mk (doing (ExceptT.run x))

def write (a : Act) : ExceptT Abort (Journaling σ) Unit :=
  modify fun s => (s.1, s.2 ++ [a])

/-- The text of an answer to a sub-request. -/
def answered (a : Journaling World (Except Abort String)) : ExceptT Abort (Journaling Run) String :=
  ExceptT.mk fun s =>
    let done := a.run (s.1.world, s.2)
    (done.1, { s.1 with world := done.2.1 }, done.2.2)

end Journaling

namespace Frame

variable (f : Frame) (evaluation : Nat)
  (ask : String → Journaling World (Except Abort String))

/-- Looks a value up, and writes down what a variable gave. -/
def journalLookup (name : String) : Scope → ExceptT Abort (Journaling Run) String
  | .variable => do
    let value ← Journaling.trying (f.lookup name .variable)
    Journaling.write ⟨evaluation, .looksUp name value⟩
    return value
  | .predicate => Journaling.trying (f.lookup name .predicate)

/-- Keeps a value, and writes down what a variable was given. -/
def journalAssign (name value : String) : Scope → ExceptT Abort (Journaling Run) Unit
  | .variable => do
    Journaling.trying (f.assign name value .variable)
    Journaling.write ⟨evaluation, .assigns name value⟩
  | .predicate => Journaling.trying (f.assign name value .predicate)

/-- Answers a text as a sub-request, about which the answers write for themselves. -/
def journalRequest (text : String) : ExceptT Abort (Journaling Run) String := do
  Journaling.trying f.checkTime
  Journaling.trying (Evaluation.session (Session.report (.subRequest (f.depth + 1) text)))
  Journaling.answered (ask text)

/-- What elements of the host can do in a frame, with a journal. -/
def journalHostCommands : HostCommands (ExceptT Abort (Journaling Run)) where
  abort cause := throw cause
  look := Journaling.trying do return f.view (← get)
  beginRound round := Journaling.trying (f.checkLoop round)
  request := f.journalRequest ask
  assign := f.journalAssign evaluation
  learn learner markup := Journaling.trying (f.learn learner markup)
  wait time := Journaling.trying <|
    modify fun r => { r with world := { r.world with clock := r.world.clock + time } }

/-- What templates can do in a frame, with a journal. -/
def journalCommands : Commands (ExceptT Abort (Journaling Run)) where
  star := f.star
  lookup := f.journalLookup evaluation
  assign := f.journalAssign evaluation
  request := f.journalRequest ask
  host element content :=
    match f.bot.registry.get? element.name with
    | some known => (known.script element).interpret (f.journalHostCommands evaluation ask) content
    | none => content

end Frame

namespace Bot

/-- Answers a text as a sub-request, with a journal, in the way in which its sentences are
answered. -/
def journalSubRequest (bot : Bot) (answer : String → Journaling World Answer) (text : String) :
    Journaling World (Except Abort String) :=
  ExceptT.run do
    let outputs ← (bot.config.splitSentences false text).mapM fun s =>
      ExceptT.mk (Answer.result <$> answer s)
    return joinOutputs outputs

/-- Answers a sentence, with a journal, `depth` levels inside sub-requests. -/
def journalAnswer (bot : Bot) (depth deadline : Nat) (raw : String) : Journaling World Answer :=
  fun (w, acts) =>
    let sentence := bot.config.normalize raw
    let input := bot.inputAt sentence w
    let w₁ := bot.searched depth deadline sentence w
    match _h : (bot.searchAt depth deadline sentence w).result with
    | .error cause => ({ sentence, input, matched? := none, result := .error cause }, w₁, acts)
    | .ok none =>
      ({ sentence, input, matched? := none, result := .ok bot.config.defaultResponse },
        ((Session.report (.noMatch w.user.id input.render)).run w₁).2, acts)
    | .ok (some found) =>
      let w₂ := ((Session.report (matchEvent found)).run w₁).2
      -- the evaluation begins with the next act
      let commands := (bot.frameOf depth deadline sentence found).journalCommands acts.length
        (bot.journalSubRequest (bot.journalAnswer (depth + 1) deadline))
      let evaluated := (ExceptT.run (Part.interpretAll commands found.entry.content)).run
        ({ world := w₂ }, acts ++ [⟨acts.length, .begins depth sentence⟩])
      ({ sentence, input, matched? := some (found.path, originOf found), result := evaluated.1 },
        evaluated.2.1.world, evaluated.2.2)
termination_by bot.config.recursionLimit + 1 - depth
decreasing_by
  have hdepth := depth_le_of_searchAt _h
  omega

/-- Answers a sentence of a request, with a journal. -/
def journalAnswerTop (bot : Bot) (sentence : String) : Journaling World Answer := do
  let w ← Journaling.doing get
  bot.journalAnswer 0 (w.clock + bot.config.timeout) sentence

/-- Answers a request, with a journal. -/
def journalChat (bot : Bot) (text : String) : Journaling World Reply := do
  let id := (← Journaling.doing get).user.id
  Journaling.doing (Session.report (.chatRequest id text))
  Journaling.doing (modify fun w => { w with user := w.user.addRequest text })
  let reply := bot.replyOf
    (← (bot.config.splitSentences false text).mapM bot.journalAnswerTop)
  Journaling.doing (Session.report (.chatResponse id reply.text))
  Journaling.doing (bot.recordReply reply)
  return reply

end Bot

/-! ## Journals go side by side with what they are about -/

/-- A journal is kept step by step, and the state and it have to do with each other in a given
way. -/
def Simulation.journaling {σ : Type} (I : σ → List Act → Prop) :
    Simulation (StateM σ) (Journaling σ) where
  rel x y := ∀ s acts, I s acts → ∃ acts', y.run (s, acts) = ((x.run s).1, (x.run s).2, acts') ∧
    I (x.run s).2 acts'
  rel_pure _ := fun _ acts h => ⟨acts, rfl, h⟩
  rel_bind := by
    intro α β x y f g hxy hfg s acts h
    obtain ⟨acts₁, hrun₁, h₁⟩ := hxy s acts h
    obtain ⟨acts₂, hrun₂, h₂⟩ := hfg (x.run s).1 (x.run s).2 acts₁ h₁
    refine ⟨acts₂, ?_, h₂⟩
    rw [run_bind_state, run_bind_state, hrun₁]
    exact hrun₂

/-- Whether something done with the world is what a journal was kept about, whatever was written
before. -/
def Journaled (config : Config) {α : Type} (x : Session α) (y : Journaling World α) : Prop :=
  ∀ start, (Simulation.journaling fun _ acts => Since config start acts).rel x y

/-- What the journal is not about can be done with the world. -/
theorem journaled_doing (config : Config) {α : Type} (x : Session α) :
    Journaled config x (Journaling.doing x) :=
  fun _ _ acts h => ⟨acts, rfl, h⟩

/-- Whether a journal was kept of the answers to sub-requests. -/
def RequestsJournaled (config : Config) (ask : Answerer)
    (ask' : String → Journaling World (Except Abort String)) : Prop :=
  ∀ text, Journaled config (ask text) (ask' text)

end Parley
