import Parley.Proofs.Search.Reports
import Parley.Proofs.Talk.Agreement

/-!
# What talking leaves alone

Built-in templates change nothing but predicates and variables. However deep their sub-requests
nest, and whether a sentence is answered or given up, the graph of all users, the number of
categories in it and the user's own graph stay as they are, and no time passes.

Main results:

* `Simulation.preservation` — what every command preserves is preserved by every template;
* `Bot.preserves_answer` — and by the answer to every sentence, if reports preserve it;
* `Bot.kept_answer` — an answer leaves the graphs alone;
* `Bot.kept_chat` — so does a whole request, with the recording of the reply.
-/

namespace Parley

/-! ## Graphs and time -/

/-- Whether a world has the graphs of an earlier one, and no time has passed. -/
structure World.Kept (v w : World) : Prop where
  knowledge : w.knowledge = v.knowledge
  graph : w.user.graph = v.user.graph
  clock : w.clock = v.clock

section Kept

variable {u v w : World}

theorem World.Kept.trans (h : u.Kept v) (h' : v.Kept w) : u.Kept w :=
  ⟨h'.knowledge.trans h.knowledge, h'.graph.trans h.graph, h'.clock.trans h.clock⟩

/-- Reports leave the graphs alone. -/
theorem World.Reported.kept (h : v.Reported w) : v.Kept w := by
  obtain ⟨log, reported, rfl⟩ := h
  exact ⟨rfl, rfl, rfl⟩

theorem World.kept_setPredicate (w : World) (name value : String) :
    w.Kept { w with user := w.user.setPredicate name value } := ⟨rfl, rfl, rfl⟩

theorem World.Kept.builtIn (h : v.Kept w) (hv : v.BuiltIn) : w.BuiltIn := by
  intro t ht
  rw [h.knowledge, h.graph] at ht
  exact hv t ht

end Kept

/-! ## Reports -/

/-- Whether a property of worlds is kept by reports that are not about categories for all users, and
by the first use of the substitutions. -/
structure World.Quiet (I : World → Prop) : Prop where
  told : ∀ (w : World) (events : List Event), (∀ e ∈ events, e.sharedPath? = none) → I w →
    I { w with log := events ++ w.log }
  marked : ∀ w : World, I w → I { w with reported := true }

namespace World.Quiet

variable {I : World → Prop} {w : World}

/-- What every report keeps is kept by these. -/
theorem of_reported (h : ∀ {v w : World}, v.Reported w → I v → I w) : World.Quiet I where
  told w _ _ hw := h ⟨_, w.reported, rfl⟩ hw
  marked w hw := h ⟨w.log, _, rfl⟩ hw

theorem report (h : World.Quiet I) {e : Event} (he : e.sharedPath? = none) (hw : I w) :
    I ((Session.report e).run w).2 :=
  h.told w [e] (List.forall_mem_singleton.2 he) hw

theorem reportAll (h : World.Quiet I) {es : List Event} (hes : ∀ e ∈ es, e.sharedPath? = none)
    (hw : I w) : I ((Session.reportAll es).run w).2 :=
  h.told w es.reverse (fun e he => hes e (List.mem_reverse.1 he)) hw

/-- The first use of the substitutions reports about them only. -/
theorem prepared (h : World.Quiet I) (bot : Bot) (hw : I w) : I (bot.prepared w) := by
  rw [Bot.prepared]
  split
  · refine h.marked _ (h.told w _ ?_ hw)
    intro e he
    exact Substitutions.sharedPath?_of_mem_events (List.mem_reverse.1 he)
  · exact hw

theorem searched (h : World.Quiet I) (bot : Bot) (depth deadline : Nat) (sentence : String)
    (hw : I w) : I (bot.searched depth deadline sentence w) :=
  h.reportAll (fun _ he => sharedPath?_of_mem_events_search he) (h.prepared bot hw)

theorem matched (h : World.Quiet I) (found : Found Template) (hw : I w) :
    I ((Session.report (Bot.matchEvent found)).run w).2 := by
  refine h.report ?_ hw
  rw [Bot.matchEvent]
  cases Bot.originOf found <;> rfl

end World.Quiet

/-! ## Evaluations -/

/-- What is preserved is preserved by one thing after the other. Both sides are the same here. -/
def Simulation.preservation {σ : Type} (I : σ → Prop) :
    Simulation (ExceptT Abort (StateM σ)) (ExceptT Abort (StateM σ)) where
  rel x _ := ∀ s, I s → I ((ExceptT.run x).run s).2
  rel_pure _ := fun _ h => h
  rel_bind := by
    intro α β x _ f _ hx hf s hs
    rw [run_bind_eq]
    have hfirst := hx s hs
    generalize (ExceptT.run x).run s = a at hfirst ⊢
    obtain ⟨result, s'⟩ := a
    cases result with
    | ok a => exact hf a s' hfirst
    | error cause => exact hfirst

variable {v : World}

/-- The commands in a frame leave the graphs alone if the answers to sub-requests do. -/
theorem Frame.preserves_commands (f : Frame) {ask : Answerer}
    (hask : ∀ text w, v.Kept w → v.Kept ((ask text).run w).2) :
    (Simulation.preservation fun r : Run => v.Kept r.world).RelCommands (f.commands ask)
      (f.commands ask) where
  star := rfl
  lookup name scope := by
    intro r h
    cases scope <;> exact h
  assign name value scope := by
    intro r h
    cases scope with
    | «variable» => exact h
    | predicate => exact h.trans (World.kept_setPredicate _ name value)
  request text := by
    intro r h
    show v.Kept ((ExceptT.run (f.request ask text)).run r).2.world
    rw [run_request]
    split
    · exact h.trans (World.reported_report _ _).kept
    · exact hask text _ (h.trans (World.reported_report _ _).kept)

/-! ## Answers -/

namespace Bot

variable {bot : Bot} {depth deadline : Nat}

/-- What the answers to its sentences preserve is preserved by a sub-request. -/
theorem preserves_subRequest {I : World → Prop}
    (hanswer : ∀ raw w, I w → I ((bot.answer depth deadline raw).run w).2) (text : String)
    (w : World) (hw : I w) : I ((bot.subRequest depth deadline text).run w).2 := by
  rw [run_subRequest]
  let S := Simulation.preservation I
  let sentence := fun raw => responding (bot.answer depth deadline raw)
  have hsentences : S.rel ((bot.config.splitSentences false text).mapM sentence)
      ((bot.config.splitSentences false text).mapM sentence) := by
    refine Simulation.mapM (fun raw => ?_) _
    intro v hv
    exact hanswer raw v hv
  exact S.rel_bind hsentences (fun outputs => S.rel_pure (joinOutputs outputs)) w hw

/-- What reports preserve, and the evaluation of a template whose sub-requests preserve it, is
preserved by the answer to a sentence, at every depth. -/
theorem preserves_answer {I : World → Prop} (hquiet : World.Quiet I)
    (hevaluating : ∀ {depth : Nat} {sentence : String} {w : World} {found : Found Template}, I w →
      (bot.searchAt depth deadline sentence w).result = .ok (some found) →
      (∀ text v, I v → I ((bot.subRequest (depth + 1) deadline text).run v).2) →
      (Simulation.preservation fun r : Run => I r.world).rel
        (bot.evaluating depth deadline sentence found)
        (bot.evaluating depth deadline sentence found))
    (depth : Nat) (raw : String) (w : World) (hw : I w) :
    I ((bot.answer depth deadline raw).run w).2 := by
  -- induction on the levels that are left
  induction hleft : bot.config.recursionLimit + 1 - depth using Nat.strongRecOn
    generalizing depth raw w with
  | _ left ih =>
    subst hleft
    have hsearched := hquiet.searched bot depth deadline (bot.config.normalize raw) hw
    rw [run_answer]
    dsimp only
    cases hresult : (bot.searchAt depth deadline (bot.config.normalize raw) w).result with
    | error cause => exact hsearched
    | ok found? =>
      cases found? with
      | none => exact hquiet.report rfl hsearched
      | some found =>
        -- a search that is not given up leaves fewer levels to sub-requests
        have hdepth := depth_le_of_searchAt hresult
        have hask := preserves_subRequest fun raw v hv =>
          ih _ (by omega) (depth + 1) raw v hv rfl
        exact hevaluating hw hresult hask { world := _ } (hquiet.matched found hsearched)

/-- **The answer to a sentence leaves the graphs alone,** however it ends. -/
theorem kept_answer (hbuiltIn : v.BuiltIn) (depth deadline : Nat) (raw : String) (w : World)
    (h : v.Kept w) : v.Kept ((bot.answer depth deadline raw).run w).2 := by
  have hquiet := World.Quiet.of_reported fun {_ _} hreported hkept =>
    World.Kept.trans (u := v) hkept hreported.kept
  refine preserves_answer hquiet ?_ depth raw w h
  intro depth sentence u found hu hresult hask
  have hcommands := Frame.preserves_commands (bot.frameOf depth deadline sentence found) hask
  have hparts := (hu.builtIn hbuiltIn).of_searchAt hresult
  exact Simulation.interpretAll hcommands found.entry.content (Or.inl hparts)

/-! ## Requests -/

theorem kept_recordReply (reply : Reply) (w : World) :
    w.Kept ((bot.recordReply reply).run w).2 := by
  obtain ⟨v, rfl | rfl, hv⟩ := bot.snd_run_recordReply reply w
  · rw [hv]
    exact ⟨rfl, rfl, rfl⟩
  · rw [hv, user_prepared]
    exact ⟨bot.knowledge_prepared w, rfl, bot.clock_prepared w⟩

/-- **A request leaves the graphs alone,** whatever its sentences come to. -/
theorem kept_chat {w : World} (hbuiltIn : w.BuiltIn) (text : String) :
    w.Kept ((bot.chat text).run w).2 := by
  have hrequested : w.Kept (requested text w) := ⟨rfl, rfl, rfl⟩
  have hanswers : w.Kept ((bot.answersTo text).run (requested text w)).2 := by
    refine preserves_run_mapM (fun raw u hu => ?_) _ hrequested
    exact kept_answer hbuiltIn 0 (u.clock + bot.config.timeout) raw u hu
  rw [run_chat]
  -- nothing more is said about the answers, so they must not be computed here
  generalize (bot.answersTo text).run (requested text w) = answers at hanswers ⊢
  exact (hanswers.trans (World.reported_report _ _).kept).trans (kept_recordReply _ _)

end Bot

end Parley
