import Parley.Proofs.Talk.Agreement

/-!
# Raising the limit of recursion

A limit of recursion is only there to end what would not end in time. Where a request gets along
with a limit, every higher limit leads to the same reply and leaves the user in the same state. For
this, an abort at the limit must come through to the sentence of the request that it belongs to,
however deep it happens, and must not become a part of any text.

Main results:

* `Bot.agree_answers` — the answers to sentences side by side, none given up at the lower limit;
* `Bot.chat_withLimit` — the reply and the user are the same under a higher limit.
-/

namespace Parley

open Text

namespace Bot

variable {bot : Bot} {limit' clock clock' : Nat}

/-- If no sentence is given up at the lower limit, all have the same answers under the higher. -/
theorem agree_answers (hlimit : bot.config.recursionLimit ≤ limit') (sentences : List String)
    {w w' : World} (h : w.Alike clock clock' w')
    (hno : ∀ a ∈ ((sentences.mapM bot.answerTop).run w).1, a.result ≠ .error .recursionLimit) :
    ((sentences.mapM (bot.withLimit limit').answerTop).run w').1 =
        ((sentences.mapM bot.answerTop).run w).1 ∧
      ((sentences.mapM bot.answerTop).run w).2.Alike clock clock'
        ((sentences.mapM (bot.withLimit limit').answerTop).run w').2 := by
  induction sentences generalizing w w' with
  | nil => exact ⟨rfl, h⟩
  | cons raw rest ih =>
    rw [List.mapM_cons, List.mapM_cons, run_bind_state, run_bind_state, run_bind_state,
      run_bind_state] at *
    have hfirst : AgreeAnswers True clock clock' ((bot.answerTop raw).run w)
        (((bot.withLimit limit').answerTop raw).run w') := by
      refine @agree_answerTop bot limit' 0 _ clock clock' True (by omega) (Or.inl trivial) ?_ raw
        w w' h
      rw [h.clock_left]
      omega
    generalize (bot.answerTop raw).run w = x at hfirst hno ⊢
    generalize ((bot.withLimit limit').answerTop raw).run w' = y at hfirst ⊢
    obtain ⟨a, v⟩ := x
    obtain ⟨b, v'⟩ := y
    rcases hfirst with ⟨-, hgiven⟩ | ⟨rfl, halike⟩
    -- the first sentence was not given up for the limit
    · exact absurd hgiven (hno a (List.mem_cons_self ..))
    · obtain ⟨hanswers, hworlds⟩ := ih halike fun a ha => hno a (List.mem_cons_of_mem _ ha)
      exact ⟨congrArg (_ :: ·) hanswers, hworlds⟩

/-- **A higher limit of recursion makes no difference to a request that gets along with a lower
one.** The whole reply is the same, and so is all that is kept of the user. -/
theorem chat_withLimit (hlimit : bot.config.recursionLimit ≤ limit') {w : World}
    (hbuiltIn : w.BuiltIn) {text : String}
    (hno : ∀ d ∈ ((bot.chat text).run w).1.details, d.outcome ≠ .aborted .recursionLimit) :
    (((bot.withLimit limit').chat text).run w).1 = ((bot.chat text).run w).1 ∧
      (((bot.withLimit limit').chat text).run w).2.user = ((bot.chat text).run w).2.user := by
  have halike : (requested text w).Alike w.clock w.clock (requested text w) :=
    World.BuiltIn.alike (w := requested text w) hbuiltIn
  -- the outcome of a sentence is kept in the details of the reply
  have hresults : ∀ a ∈ ((bot.answersTo text).run (requested text w)).1,
      a.result ≠ .error .recursionLimit := by
    intro a ha hresult
    rw [fst_run_chat, details_replyOf] at hno
    refine hno a.details (List.mem_map_of_mem ha) (Outcome.cause?_eq_some_iff.1 ?_)
    exact a.cause?_outcome.trans (Answer.cause?_of_error hresult)
  obtain ⟨hanswers, hworlds⟩ := agree_answers hlimit _ halike hresults
  have hreply : (((bot.withLimit limit').chat text).run w).1 = ((bot.chat text).run w).1 := by
    rw [fst_run_chat, fst_run_chat]
    exact congrArg bot.replyOf hanswers
  refine ⟨hreply, ?_⟩
  rw [user_snd_run_chat, user_snd_run_chat, hreply]
  refine congrArg (fun user : User => user.addReply bot.config _) ?_
  exact hworlds.user_eq (evolves_answersTo text _) (evolves_answersTo text _)

end Bot

/-- One level of sub-requests is enough for a greeting that asks for another. -/
theorem chat_withLimit_hello :
    let lower := ((Samples.bot.withLimit 1).chat "hello").run Samples.talkative
    let higher := (((Samples.bot.withLimit 1).withLimit 50).chat "hello").run Samples.talkative
    lower.1.text = "Hi! there" ∧ higher.1 = lower.1 ∧ higher.2.user = lower.2.user :=
  ⟨by decide +kernel,
    Bot.chat_withLimit (by decide) Samples.builtIn_talkative (by decide +kernel)⟩

end Parley
