import Parley.Proofs.Talk.Course

/-!
# Going down level by level

Templates and lists of sentences are finite, but a template can ask for the answer to any text, and
so for an answer by itself. Here this recursion is followed as it stands, with a number of levels to
go down and no other bound: what would go down further has no result. What is searched for and what
is evaluated on the way is noted with its depth.

Main results:

* `Bot.tryAnswer_mono` — a sentence that gets an answer gets the same answer with more levels;
* `Bot.tryChat_mono` — more levels do not change a request that comes to an end.
-/

namespace Parley

open Text

/-! ## Going down -/

/-- What is done for a sentence, and how many levels inside sub-requests it is done. -/
inductive Visit where
  | search (depth : Nat)
  | template (depth : Nat)
  deriving DecidableEq, Repr

def Visit.depth : Visit → Nat
  | .search depth => depth
  | .template depth => depth

/-- A computation that may not come to an end. It notes its visits in their order. -/
abbrev Descent (σ : Type) := StateT (σ × List Visit) Option

namespace Descent

/-- Does what comes to an end and visits nothing. -/
def doing {σ α : Type} (x : ExceptT Abort (StateM σ) α) : ExceptT Abort (Descent σ) α :=
  ExceptT.mk fun s =>
    let done := (ExceptT.run x).run s.1
    some (done.1, done.2, s.2)

/-- The text of an answer to a sub-request, which may not come to an end. -/
def answered (a : Descent World (Except Abort String)) : ExceptT Abort (Descent Run) String :=
  ExceptT.mk fun s =>
    (a.run (s.1.world, s.2)).map fun done => (done.1, { s.1 with world := done.2.1 }, done.2.2)

end Descent

/-- What templates can do in a frame if their sub-requests may not come to an end. Nothing is known
about elements of the host, so they count as not coming to an end. -/
def Frame.tryCommands (f : Frame) (ask : String → Descent World (Except Abort String)) :
    Commands (ExceptT Abort (Descent Run)) where
  star := f.star
  lookup name scope := Descent.doing (f.lookup name scope)
  assign name value scope := Descent.doing (f.assign name value scope)
  request text := do
    Descent.doing f.checkTime
    Descent.doing (Evaluation.session (Session.report (.subRequest (f.depth + 1) text)))
    Descent.answered (ask text)
  host _ _ := ExceptT.mk fun _ => none

namespace Bot

/-- Answers a text as a sub-request, in the way in which its sentences are answered. -/
def trySubRequest (bot : Bot) (answer : String → Descent World Answer) (text : String) :
    Descent World (Except Abort String) :=
  ExceptT.run do
    let outputs ← (bot.config.splitSentences false text).mapM fun s =>
      ExceptT.mk (Answer.result <$> answer s)
    return joinOutputs outputs

/-- Answers a sentence in as many levels as are given. -/
def tryAnswer (bot : Bot) : Nat → Nat → Nat → String → Descent World Answer
  | 0, _, _, _ => fun _ => none
  | levels + 1, depth, deadline, raw => fun (w, before) =>
    let sentence := bot.config.normalize raw
    let input := bot.inputAt sentence w
    let w₁ := bot.searched depth deadline sentence w
    let visits := before ++ [.search depth]
    match (bot.searchAt depth deadline sentence w).result with
    | .error cause =>
      some ({ sentence, input, matched? := none, result := .error cause }, w₁, visits)
    | .ok none =>
      some ({ sentence, input, matched? := none, result := .ok bot.config.defaultResponse },
        ((Session.report (.noMatch w.user.id input.render)).run w₁).2, visits)
    | .ok (some found) =>
      let w₂ := ((Session.report (matchEvent found)).run w₁).2
      let commands := (bot.frameOf depth deadline sentence found).tryCommands
        (bot.trySubRequest (bot.tryAnswer levels (depth + 1) deadline))
      let evaluated := (ExceptT.run (Part.interpretAll commands found.entry.content)).run
        ({ world := w₂ }, visits ++ [.template depth])
      evaluated.map fun (result, r, visits) =>
        ({ sentence, input, matched? := some (found.path, originOf found), result },
          r.world, visits)

/-- Answers sentences one after the other, each in its own time and with its own visits. -/
def tryAnswers (bot : Bot) (levels : Nat) :
    List String → World → Option (List (Answer × List Visit) × World)
  | [], w => some ([], w)
  | raw :: rest, w => do
    let (a, w₁, visits) ← bot.tryAnswer levels 0 (w.clock + bot.config.timeout) raw (w, [])
    let (others, w₂) ← bot.tryAnswers levels rest w₁
    return ((a, visits) :: others, w₂)

/-- Answers a request in as many levels as are given, with the visits for each sentence. -/
def tryChat (bot : Bot) (levels : Nat) (text : String) (w : World) :
    Option ((Reply × World) × List (List Visit)) := do
  let (answers, w₁) ←
    bot.tryAnswers levels (bot.config.splitSentences false text) (requested text w)
  let reply := bot.replyOf (answers.map Prod.fst)
  let w₂ := ((Session.report (.chatResponse w.user.id reply.text)).run w₁).2
  return ((reply, ((bot.recordReply reply).run w₂).2), answers.map Prod.snd)

end Bot

/-! ## More levels -/

/-- What comes second is begun if what comes first is not given up. -/
theorem run_bind_descent {σ α β : Type} (y : ExceptT Abort (Descent σ) α)
    (g : α → ExceptT Abort (Descent σ) β) (s : σ × List Visit) :
    (ExceptT.run (y >>= g)).run s =
      ((ExceptT.run y).run s).bind fun done =>
        match done with
        | (.ok a, s') => (ExceptT.run (g a)).run s'
        | (.error cause, s') => some (.error cause, s') := by
  rw [ExceptT.run_bind, StateT.run_bind]
  refine congrArg (((ExceptT.run y).run s).bind ·) ?_
  funext done
  obtain ⟨result, s'⟩ := done
  cases result <;> rfl

/-- What has come to an end stays as it is. -/
def Simulation.extension (σ : Type) :
    Simulation (ExceptT Abort (Descent σ)) (ExceptT Abort (Descent σ)) where
  rel y y' := ∀ s done, (ExceptT.run y).run s = some done → (ExceptT.run y').run s = some done
  rel_pure _ := fun _ _ h => h
  rel_bind := by
    intro α β y y' g g' hy hg s done h
    rw [run_bind_descent, Option.bind_eq_some_iff] at h ⊢
    obtain ⟨⟨result, s'⟩, hfirst, hsecond⟩ := h
    refine ⟨(result, s'), hy s _ hfirst, ?_⟩
    cases result with
    | ok a => exact hg a s' done hsecond
    | error cause => exact hsecond

/-- What templates can do stays as it is where sub-requests do. -/
theorem Frame.extension_commands {f : Frame}
    {ask ask' : String → Descent World (Except Abort String)}
    (hask : ∀ text s done, (ask text).run s = some done → (ask' text).run s = some done) :
    (Simulation.extension Run).RelCommands (f.tryCommands ask) (f.tryCommands ask') where
  star := rfl
  lookup _ _ := fun _ _ h => h
  assign _ _ _ := fun _ _ h => h
  request text := by
    refine Simulation.rel_bind _ (fun _ _ h => h) fun _ => ?_
    refine Simulation.rel_bind _ (fun _ _ h => h) fun _ => ?_
    intro s done h
    obtain ⟨answer, hanswer, rfl⟩ := Option.map_eq_some_iff.1 h
    exact Option.map_eq_some_iff.2 ⟨answer, hask text _ _ hanswer, rfl⟩

namespace Bot

variable {bot : Bot} {deadline : Nat}

theorem trySubRequest_mono {answer answer' : String → Descent World Answer}
    (hanswer : ∀ raw s done, (answer raw).run s = some done → (answer' raw).run s = some done)
    (text : String) (s : World × List Visit) (done : Except Abort String × World × List Visit)
    (h : (bot.trySubRequest answer text).run s = some done) :
    (bot.trySubRequest answer' text).run s = some done := by
  have hsentences : (Simulation.extension World).rel
      ((bot.config.splitSentences false text).mapM fun s => ExceptT.mk (Answer.result <$> answer s))
      ((bot.config.splitSentences false text).mapM fun s =>
        ExceptT.mk (Answer.result <$> answer' s)) := by
    refine Simulation.mapM (fun raw => ?_) _
    intro s done h
    change (Answer.result <$> answer raw).run s = some done at h
    show (Answer.result <$> answer' raw).run s = some done
    rw [StateT.run_map] at h ⊢
    obtain ⟨first, hfirst, rfl⟩ := Option.map_eq_some_iff.1 h
    exact Option.map_eq_some_iff.2 ⟨first, hanswer raw s first hfirst, rfl⟩
  exact Simulation.rel_bind _ hsentences (fun outputs => Simulation.rel_pure _ _) s done h

/-- A sentence that gets an answer gets the same answer with more levels. -/
theorem tryAnswer_mono {levels levels' : Nat} (hle : levels ≤ levels') (depth : Nat) (raw : String)
    (s : World × List Visit) (done : Answer × World × List Visit)
    (h : (bot.tryAnswer levels depth deadline raw).run s = some done) :
    (bot.tryAnswer levels' depth deadline raw).run s = some done := by
  induction levels generalizing levels' depth raw s done with
  | zero => cases h
  | succ levels ih =>
    obtain ⟨levels', rfl⟩ : ∃ n, levels' = n + 1 := ⟨levels' - 1, by omega⟩
    change bot.tryAnswer (levels + 1) depth deadline raw s = some done at h
    show bot.tryAnswer (levels' + 1) depth deadline raw s = some done
    rw [tryAnswer] at h ⊢
    obtain ⟨w, before⟩ := s
    dsimp only at h ⊢
    cases hresult : (bot.searchAt depth deadline (bot.config.normalize raw) w).result with
    | error cause =>
      rw [hresult] at h
      exact h
    | ok found? =>
      rw [hresult] at h
      cases found? with
      | none => exact h
      | some found =>
        -- only the sub-requests of the template have something to do with the levels
        have hcommands := @Frame.extension_commands
          (bot.frameOf depth deadline (bot.config.normalize raw) found) _ _
          (bot.trySubRequest_mono (ih (Nat.le_of_succ_le_succ hle) (depth + 1)))
        have hextends := Simulation.interpretAll hcommands found.entry.content
          (Or.inr fun _ _ _ _ _ _ h => by cases h)
        obtain ⟨evaluated, hevaluated, rfl⟩ := Option.map_eq_some_iff.1 h
        exact Option.map_eq_some_iff.2 ⟨evaluated, hextends _ _ hevaluated, rfl⟩

theorem tryAnswers_mono {levels levels' : Nat} (hle : levels ≤ levels') (sentences : List String)
    (w : World) (done : List (Answer × List Visit) × World)
    (h : bot.tryAnswers levels sentences w = some done) :
    bot.tryAnswers levels' sentences w = some done := by
  induction sentences generalizing w done with
  | nil => exact h
  | cons raw rest ih =>
    rw [tryAnswers] at h ⊢
    obtain ⟨first, hfirst, h⟩ := Option.bind_eq_some_iff.1 h
    obtain ⟨others, hothers, h⟩ := Option.bind_eq_some_iff.1 h
    refine Option.bind_eq_some_iff.2 ⟨first, tryAnswer_mono hle 0 raw _ _ hfirst, ?_⟩
    exact Option.bind_eq_some_iff.2 ⟨others, ih _ _ hothers, h⟩

/-- A request that comes to an end does so in the same way with more levels. -/
theorem tryChat_mono {levels levels' : Nat} (hle : levels ≤ levels') {text : String} {w : World}
    {done : (Reply × World) × List (List Visit)} (h : bot.tryChat levels text w = some done) :
    bot.tryChat levels' text w = some done := by
  rw [tryChat] at h ⊢
  obtain ⟨answers, hanswers, h⟩ := Option.bind_eq_some_iff.1 h
  exact Option.bind_eq_some_iff.2 ⟨answers, tryAnswers_mono hle _ _ _ hanswers, h⟩

end Bot

end Parley
