import Parley.Proofs.Flattening
import Parley.Proofs.Talk.Keeping

/-!
# What lasts while the bot talks

Templates and elements of the host have few means to change a world: they give predicates values,
let time pass, and learn categories whose patterns are read from markup. All else that happens while
sentences are answered is that something is reported. A property of worlds that each of these keeps
is kept by every answer, at every depth and whether or not the sentence is given up, and by every
request.

Main results:

* `World.Lasts` — what has to be kept by each of the means;
* `World.Endures`, `Bot.endures_chat` — the same for properties that say what is reported about
  categories for all users;
* `Bot.lasts_answer` — a property that lasts is kept by the answer to a sentence;
* `Bot.lasts_chat` — it is kept by a request, with the recording of the request and of the reply;
* `Bot.lasts_addCategory` — and when the bot is taught.
-/

namespace Parley

/-! ## Learning -/

/-- Whether all patterns of a category are the contents of some markup. -/
structure Category.FromMarkup (c : Category) : Prop extends c.IsRead where
  topic : ∀ p ∈ c.topic?, p.IsRead

/-- A pattern that may be left out is the content of some markup if it is there. -/
theorem Pattern.isRead_of_mapM_parse {markup? : Option String} {p? : Option Pattern}
    (h : markup?.mapM parse = .ok p?) : ∀ p ∈ p?, p.IsRead := by
  cases markup? with
  | none =>
    obtain rfl := Except.ok.inj h
    exact nofun
  | some markup =>
    obtain ⟨p, hp, h⟩ := Markup.bind_eq_ok_iff.1 h
    obtain rfl := Except.ok.inj h
    rintro _ ⟨⟩
    exact ⟨markup, hp⟩

/-- What is read while the bot talks is from markup. -/
theorem Bot.fromMarkup_of_readCategory {bot : Bot} {c : Category} {markup : CategoryMarkup}
    (h : bot.readCategory markup = .ok c) : c.FromMarkup := by
  obtain ⟨start, hstart, h⟩ := Markup.bind_eq_ok_iff.1 h
  obtain ⟨that?, hthat, h⟩ := Markup.bind_eq_ok_iff.1 h
  obtain ⟨topic?, htopic, h⟩ := Markup.bind_eq_ok_iff.1 h
  obtain rfl := Except.ok.inj h
  -- the template is read before the pattern, and has no part in this
  obtain ⟨template, -, hstart⟩ := Markup.bind_eq_ok_iff.1 hstart
  obtain ⟨pattern, hpattern, hstart⟩ := Markup.bind_eq_ok_iff.1 hstart
  obtain rfl := Except.ok.inj hstart
  exact ⟨⟨⟨markup.pattern, hpattern⟩, Pattern.isRead_of_mapM_parse hthat⟩,
    Pattern.isRead_of_mapM_parse htopic⟩

namespace Bot

variable (bot : Bot)

/-- A world in which the graph of all users has one more category, if its path was new. -/
def taught (topicName? : Option String) (c : Category) (w : World) : World :=
  { w with knowledge := (w.knowledge.add (c.path bot.config topicName?) c.template).1 }

/-- A world in which the user's own graph has one more category, if its path was new. -/
def taughtOwn (c : Category) (w : World) : World :=
  { w with
    user :=
      { w.user with graph := (w.user.graph.insert (c.path bot.config none) c.template).1 } }

theorem reported_run_addCategory (topicName? : Option String) (c : Category) (w : World) :
    (bot.taught topicName? c w).Reported ((bot.addCategory topicName? c).run w).2 := by
  unfold addCategory taught
  dsimp only
  rw [run_get_bind]
  cases hadd : w.knowledge.add (c.path bot.config topicName?) c.template with
  | mk knowledge existing? =>
    cases existing? with
    | none => exact ⟨w.log, w.reported, rfl⟩
    | some existing => exact ⟨_, w.reported, rfl⟩

/-- What a category does to the graph of all users is reported. -/
theorem reported_run_learnShared (c : Category) (w : World) :
    (bot.taught none c w).Reported ((bot.learnShared c).run w).2 := by
  refine (bot.reported_run_addCategory none c w).trans ?_
  rw [learnShared, run_bind_state]
  generalize (bot.addCategory none c).run w = added
  obtain ⟨existing?, v⟩ := added
  cases existing? with
  | none => exact World.reported_report _ v
  | some existing => exact v.reported_self

/-- What a category does to the user's own graph is reported. A path that has one changes
nothing. -/
theorem reported_run_learnOwn (c : Category) (w : World) :
    w.Reported ((bot.learnOwn c).run w).2 ∨
      (bot.taughtOwn c w).Reported ((bot.learnOwn c).run w).2 := by
  unfold learnOwn taughtOwn
  dsimp only
  rw [run_get_bind]
  cases hinsert : w.user.graph.insert (c.path bot.config none) c.template with
  | mk graph existing? =>
    cases existing? with
    | none => exact Or.inr ⟨_, w.reported, rfl⟩
    | some existing => exact Or.inl ⟨_, w.reported, rfl⟩

end Bot

/-! ## Properties that last -/

/-- Whether a property of worlds is kept by everything that happens while the bot talks. -/
structure World.Lasts (bot : Bot) (I : World → Prop) : Prop where
  reported : ∀ {v w : World}, v.Reported w → I v → I w
  setPredicate : ∀ (w : World) (name value : String), I w →
    I { w with user := w.user.setPredicate name value }
  wait : ∀ (w : World) (time : Nat), I w → I { w with clock := w.clock + time }
  taught : ∀ (topicName? : Option String) (c : Category), c.FromMarkup → ∀ w, I w →
    I (bot.taught topicName? c w)
  taughtOwn : ∀ c : Category, c.FromMarkup → ∀ w, I w → I (bot.taughtOwn c w)
  /-- Requests and replies are kept in the user's history. -/
  recorded : ∀ (w : World) (requests : History String) (replies : History Reply) (that : String),
    I w → I { w with user := { w.user with requests, replies, that } }

/-- Whether a property of worlds is kept by everything that happens while the bot talks, where what
is reported about categories for all users counts. -/
structure World.Endures (bot : Bot) (I : World → Prop) : Prop extends World.Quiet I where
  setPredicate : ∀ (w : World) (name value : String), I w →
    I { w with user := w.user.setPredicate name value }
  wait : ∀ (w : World) (time : Nat), I w → I { w with clock := w.clock + time }
  learnShared : ∀ c : Category, c.FromMarkup → ∀ w, I w → I ((bot.learnShared c).run w).2
  learnOwn : ∀ c : Category, c.FromMarkup → ∀ w, I w → I ((bot.learnOwn c).run w).2
  /-- Requests and replies are kept in the user's history. -/
  recorded : ∀ (w : World) (requests : History String) (replies : History Reply) (that : String),
    I w → I { w with user := { w.user with requests, replies, that } }

variable {bot : Bot} {I : World → Prop} {depth deadline : Nat}

/-- A property that lasts whatever is reported. -/
theorem World.Lasts.endures (h : World.Lasts bot I) : World.Endures bot I where
  toQuiet := .of_reported h.reported
  setPredicate := h.setPredicate
  wait := h.wait
  learnShared c hc w hw := h.reported (bot.reported_run_learnShared c w) (h.taught none c hc w hw)
  learnOwn c hc w hw := by
    rcases bot.reported_run_learnOwn c w with hreported | hreported
    · exact h.reported hreported hw
    · exact h.reported hreported (h.taughtOwn c hc w hw)
  recorded := h.recorded

/-- The simulation for a property of worlds that is kept while a template is evaluated. -/
abbrev Simulation.lasting (I : World → Prop) : Simulation Evaluation Evaluation :=
  Simulation.preservation fun r : Run => I r.world

namespace Frame

variable {f : Frame} {ask : Answerer}

theorem endures_assign (h : World.Endures f.bot I) (name value : String) (scope : Scope) :
    (Simulation.lasting I).rel (f.assign name value scope) (f.assign name value scope) := by
  intro r hr
  cases scope with
  | «variable» => exact hr
  | predicate => exact h.setPredicate r.world name value hr

theorem endures_request (h : World.Endures f.bot I)
    (hask : ∀ text w, I w → I ((ask text).run w).2) (text : String) :
    (Simulation.lasting I).rel (f.request ask text) (f.request ask text) := by
  intro r hr
  show I ((ExceptT.run (f.request ask text)).run r).2.world
  rw [run_request]
  split
  · exact h.report rfl hr
  · exact hask text _ (h.report rfl hr)

/-- A round of a loop may be reported, and so may the end of the time. -/
theorem endures_checkLoop (h : World.Endures f.bot I) (round : Nat) :
    (Simulation.lasting I).rel (f.checkLoop round) (f.checkLoop round) := by
  have hcheck : (Simulation.lasting I).rel f.checkTime f.checkTime := by
    intro r hr
    rw [run_checkTime]
    split
    · exact h.report rfl hr
    · exact hr
  unfold checkLoop
  split
  · refine (Simulation.lasting I).rel_bind (fun r hr => hr) fun r => ?_
    refine (Simulation.lasting I).rel_bind (fun r hr => h.report rfl hr) fun _ => ?_
    exact (Simulation.lasting I).rel_bind (fun r hr => hr) fun _ => hcheck
  · exact hcheck

/-- To learn from markup is one of the means, and to learn from faulty markup does nothing. -/
theorem endures_learn (h : World.Endures f.bot I) (learner : Learner) (markup : CategoryMarkup) :
    (Simulation.lasting I).rel (f.learn learner markup)
      (f.learn learner markup) := by
  unfold learn
  split
  · exact (Simulation.lasting I).rel_pure _
  · next c hc =>
    have hmarkup := Bot.fromMarkup_of_readCategory hc
    cases learner with
    | user =>
      refine (Simulation.lasting I).rel_bind ?_ fun _ => (Simulation.lasting I).rel_pure _
      exact fun r hr => h.learnOwn c hmarkup r.world hr
    | everyone =>
      refine (Simulation.lasting I).rel_bind ?_ fun _ => (Simulation.lasting I).rel_pure _
      exact fun r hr => h.learnShared c hmarkup r.world hr

theorem endures_hostCommands (h : World.Endures f.bot I)
    (hask : ∀ text w, I w → I ((ask text).run w).2) :
    (Simulation.lasting I).RelHostCommands (f.hostCommands ask) (f.hostCommands ask) where
  abort _ := fun _ hr => hr
  look := fun _ hr => hr
  beginRound := endures_checkLoop h
  request := endures_request h hask
  assign := endures_assign h
  learn := endures_learn h
  wait time := fun r hr => h.wait r.world time hr

theorem endures_commands (h : World.Endures f.bot I)
    (hask : ∀ text w, I w → I ((ask text).run w).2) :
    (Simulation.lasting I).RelCommands (f.commands ask) (f.commands ask) where
  star := rfl
  lookup name scope := by
    intro r hr
    cases scope <;> exact hr
  assign := endures_assign h
  request := endures_request h hask

theorem endures_host (h : World.Endures f.bot I)
    (hask : ∀ text w, I w → I ((ask text).run w).2) :
    (Simulation.lasting I).RelHost (f.commands ask) (f.commands ask) := by
  intro element x y hcontent
  unfold commands
  dsimp only
  cases f.bot.registry.get? element.name with
  | none => exact hcontent
  | some known =>
    dsimp only
    rw [Script.run_eq_interpret, Script.run_eq_interpret]
    exact Simulation.script (endures_hostCommands h hask) hcontent _

end Frame

/-! ## Answers and requests -/

namespace Bot

/-- What is kept by everything that happens is kept by the answer to a sentence, however it ends, at
every depth. -/
theorem endures_answer (h : World.Endures bot I) (depth deadline : Nat) (raw : String) (w : World)
    (hw : I w) : I ((bot.answer depth deadline raw).run w).2 := by
  refine preserves_answer h.toQuiet ?_ depth raw w hw
  intro depth sentence v found _ _ hask
  let f := bot.frameOf depth deadline sentence found
  -- elements of the host are no exception
  exact Simulation.interpretAll (Frame.endures_commands (f := f) h hask) found.entry.content
    (Or.inr (Frame.endures_host (f := f) h hask))

theorem endures_answersTo (h : World.Endures bot I) (text : String) (w : World) (hw : I w) :
    I ((bot.answersTo text).run w).2 := by
  refine preserves_run_mapM (fun raw v hv => ?_) _ hw
  exact endures_answer h 0 (v.clock + bot.config.timeout) raw v hv

theorem endures_requested (h : World.Endures bot I) (text : String) (w : World) (hw : I w) :
    I (requested text w) := by
  have hrecorded := h.recorded w (w.user.requests.add text) w.user.replies w.user.that hw
  exact h.told _ [.chatRequest w.user.id text] (List.forall_mem_singleton.2 rfl) hrecorded

/-- It is kept by a request, whatever its sentences come to. -/
theorem endures_chat (h : World.Endures bot I) (text : String) (w : World) (hw : I w) :
    I ((bot.chat text).run w).2 := by
  have hanswers := endures_answersTo h text _ (endures_requested h text w hw)
  rw [run_chat]
  -- nothing more is said about the answers, so they must not be computed here
  generalize (bot.answersTo text).run (requested text w) = answers at hanswers ⊢
  dsimp only
  generalize hreported : ((Session.report _).run answers.2).2 = v
  have hv : I v := by
    rw [← hreported]
    exact h.report rfl hanswers
  obtain ⟨u, hu, hend⟩ := bot.snd_run_recordReply (bot.replyOf answers.1) v
  have hu' : I u := by
    rcases hu with rfl | rfl
    · exact hv
    · exact h.prepared bot hv
  rw [hend]
  exact h.recorded u u.user.requests _ _ hu'

/-- **A property that lasts is kept by the answer to a sentence,** however it ends, at every
depth. -/
theorem lasts_answer (h : World.Lasts bot I) (depth deadline : Nat) (raw : String) (w : World)
    (hw : I w) : I ((bot.answer depth deadline raw).run w).2 :=
  endures_answer h.endures depth deadline raw w hw

theorem lasts_requested (h : World.Lasts bot I) (text : String) (w : World) (hw : I w) :
    I (requested text w) :=
  endures_requested h.endures text w hw

/-- **A property that lasts is kept by a request,** whatever its sentences come to. -/
theorem lasts_chat (h : World.Lasts bot I) (text : String) (w : World) (hw : I w) :
    I ((bot.chat text).run w).2 :=
  endures_chat h.endures text w hw

/-- It is kept when the bot is taught a category, which may stand under a topic. -/
theorem lasts_addCategory (h : World.Lasts bot I) (topicName? : Option String) {c : Category}
    (hc : c.FromMarkup) {w : World} (hw : I w) :
    I ((bot.addCategory topicName? c).run w).2 :=
  h.reported (bot.reported_run_addCategory topicName? c w) (h.taught topicName? c hc w hw)

end Bot

end Parley
