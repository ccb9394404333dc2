import Parley.Proofs.Talk.Noting

/-!
# Deadlines that a clock can show

Every sentence of a request has a deadline, which is computed when the sentence is begun. On a clock
that can show them all, a request is answered as it is on a clock that can show every time. On any
other clock it breaks off at the first sentence whose deadline cannot be shown.

Main results:

* `Bot.run_answerTop?` — one sentence;
* `Bot.run_chat?_of_forall` — a request whose deadlines can all be shown;
* `Bot.fst_run_chat?_eq_none` — a request with a deadline that cannot.
-/

namespace Parley

/-- What comes second is begun if what comes first is not broken off. -/
theorem run_bind_option {σ α β : Type} (x : OptionT (StateM σ) α) (f : α → OptionT (StateM σ) β)
    (s : σ) :
    (OptionT.run (x >>= f)).run s =
      match (OptionT.run x).run s with
      | (some a, s') => (OptionT.run (f a)).run s'
      | (none, s') => (none, s') := by
  rw [OptionT.run_bind, Option.elimM, run_bind_state]
  obtain ⟨a?, s'⟩ := (OptionT.run x).run s
  cases a? <;> rfl

namespace Bot

variable {bot : Bot} {last : Nat}

/-- A sentence is answered exactly if the clock can show its deadline. -/
theorem run_answerTop? (last : Nat) (raw : String) (w : World) :
    (OptionT.run (bot.answerTop? last raw)).run w =
      if w.clock + bot.config.timeout ≤ last then
        (some ((bot.answerTop raw).run w).1, ((bot.answerTop raw).run w).2)
      else (none, bot.prepared w) := by
  show (OptionT.run (ite (w.clock + bot.config.timeout ≤ last) _ _ : OptionT Session Answer)).run
    w = _
  split
  · rfl
  · rw [run_bind_option]
    show (none, ((bot.normalize raw).run w).2) = _
    rw [run_normalize]

/-- The sentences behind the first are answered in the world that its answer leaves. -/
theorem courses_cons (raw : String) (rest : List String) (w : World) :
    ∃ c : Course, c.before = w ∧
      bot.courses (raw :: rest) w = c :: bot.courses rest ((bot.answerTop raw).run w).2 := by
  obtain ⟨-, notes, hrun, -, -⟩ :=
    bot.noted_noteAnswer 0 (w.clock + bot.config.timeout) raw w [] rfl
  rw [courses, hrun]
  exact ⟨_, rfl, rfl⟩

/-- Sentences whose deadlines can all be shown have the answers that they have anyway. -/
theorem run_mapM_answerTop?_of_forall {sentences : List String} {w : World}
    (h : ∀ c ∈ bot.courses sentences w, c.before.clock + bot.config.timeout ≤ last) :
    (OptionT.run (sentences.mapM (bot.answerTop? last))).run w =
      (some ((sentences.mapM bot.answerTop).run w).1,
        ((sentences.mapM bot.answerTop).run w).2) := by
  induction sentences generalizing w with
  | nil => rfl
  | cons raw rest ih =>
    obtain ⟨c, rfl, hcourses⟩ := bot.courses_cons raw rest w
    rw [hcourses, List.forall_mem_cons] at h
    rw [List.mapM_cons, run_bind_option, run_answerTop?, if_pos h.1, run_mapM_cons]
    dsimp only
    rw [run_bind_option, ih h.2]
    rfl

/-- Where one of the deadlines cannot be shown, the sentences are not all answered. -/
theorem fst_run_mapM_answerTop?_eq_none {sentences : List String} {w : World}
    (h : ∃ c ∈ bot.courses sentences w, last < c.before.clock + bot.config.timeout) :
    ((OptionT.run (sentences.mapM (bot.answerTop? last))).run w).1 = none := by
  induction sentences generalizing w with
  | nil =>
    obtain ⟨c, hc, -⟩ := h
    cases hc
  | cons raw rest ih =>
    obtain ⟨first, hbefore, hcourses⟩ := bot.courses_cons raw rest w
    rw [hcourses] at h
    rw [List.mapM_cons, run_bind_option, run_answerTop?]
    by_cases hfirst : w.clock + bot.config.timeout ≤ last
    · -- the first is answered, so that the deadline is that of another one
      rw [if_pos hfirst]
      dsimp only
      have hrest : ∃ c ∈ bot.courses rest ((bot.answerTop raw).run w).2,
          last < c.before.clock + bot.config.timeout := by
        obtain ⟨c, hc, hlt⟩ := h
        rcases List.mem_cons.1 hc with rfl | hc
        · rw [hbefore] at hlt
          omega
        · exact ⟨c, hc, hlt⟩
      rw [run_bind_option]
      have hnone := ih hrest
      generalize (OptionT.run (rest.mapM (bot.answerTop? last))).run _ = done at hnone ⊢
      obtain ⟨answers?, w'⟩ := done
      obtain rfl : answers? = none := hnone
      rfl
    · rw [if_neg hfirst]

/-- A request is recorded, and if its sentences are all answered, the reply is reported and
recorded. -/
theorem run_chat? (last : Nat) (text : String) (w : World) :
    (OptionT.run (bot.chat? last text)).run w =
      match (OptionT.run ((bot.config.splitSentences false text).mapM (bot.answerTop? last))).run
          (requested text w) with
      | (some answers, w₁) =>
        let reply := bot.replyOf answers
        (some reply,
          ((bot.recordReply reply).run
            ((Session.report (.chatResponse w.user.id reply.text)).run w₁).2).2)
      | (none, w₁) => (none, w₁) := by
  rw [chat?]
  -- nothing is said about the answers and the record, so they must not be computed here
  generalize (bot.config.splitSentences false text).mapM (bot.answerTop? last) = answering
  generalize bot.recordReply = record
  rw [run_bind_option]
  show (OptionT.run (answering >>= _)).run (requested text w) = _
  rw [run_bind_option]
  obtain ⟨answers?, w₁⟩ := (OptionT.run answering).run (requested text w)
  cases answers? <;> rfl

/-- **A request whose deadlines can all be shown** has the reply that it has anyway, and leaves the
same world. -/
theorem run_chat?_of_forall {text : String} {w : World}
    (h : ∀ c ∈ bot.courses (bot.config.splitSentences false text) (requested text w),
      c.before.clock + bot.config.timeout ≤ last) :
    (OptionT.run (bot.chat? last text)).run w =
      (some ((bot.chat text).run w).1, ((bot.chat text).run w).2) := by
  have hanswers : (bot.answersTo text).run (requested text w) =
      ((bot.config.splitSentences false text).mapM bot.answerTop).run (requested text w) := rfl
  rw [run_chat?, run_mapM_answerTop?_of_forall h, run_chat, hanswers]

/-- **A request with a deadline that cannot be shown** has no reply. -/
theorem fst_run_chat?_eq_none {text : String} {w : World}
    (h : ∃ c ∈ bot.courses (bot.config.splitSentences false text) (requested text w),
      last < c.before.clock + bot.config.timeout) :
    ((OptionT.run (bot.chat? last text)).run w).1 = none := by
  have hnone := fst_run_mapM_answerTop?_eq_none h
  rw [run_chat?]
  generalize (OptionT.run ((bot.config.splitSentences false text).mapM
    (bot.answerTop? last))).run (requested text w) = done at hnone ⊢
  obtain ⟨answers?, w'⟩ := done
  obtain rfl : answers? = none := hnone
  rfl

end Bot

end Parley
