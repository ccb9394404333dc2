import Parley.Proofs.Spacing
import Parley.Proofs.Talk.Agreement

/-!
# The spacing of a request

Two requests whose texts have the same words get the same reply and leave the user in the same
state, whatever blanks there are around and between the words. The one trace of the blanks is the
sentence that the details of a reply keep.

No induction is needed here: blanks matter only up to the words that are matched, and from there on
both requests go the same way. A template sees the captures and never the sentence itself, so that
the texts of all sub-requests are the same.

Main results:

* `Bot.resembles_answerTop` — sentences with the same words have the same answers;
* `Bot.chat_respaced` — requests with the same words have the same reply.
-/

namespace Parley

open Text

/-- Whether two answers are the same, apart from the sentence as it was matched. -/
def Answer.Resembles (a b : Answer) : Prop := b = { a with sentence := b.sentence }

/-- What the details of a reply say, apart from the sentence as it was matched. -/
def Details.findings (d : Details) : String × Option String × Option Origin × Outcome :=
  (d.normalizedPath, d.matchedPath?, d.origin?, d.outcome)

section Resembles

variable {bot : Bot} {a b : Answer} {answers answers' : List Answer}

theorem Answer.Resembles.outputOf_eq (h : a.Resembles b) : bot.outputOf b = bot.outputOf a := by
  rw [h]
  rfl

theorem Answer.Resembles.findings_eq (h : a.Resembles b) :
    b.details.findings = a.details.findings := by
  rw [h]
  rfl

theorem sentences_replyOf_eq (h : List.Forall₂ Answer.Resembles answers answers') :
    (bot.replyOf answers').sentences = (bot.replyOf answers).sentences := by
  have houtputs : answers'.map (fun a => trim (bot.outputOf a)) =
      answers.map fun a => trim (bot.outputOf a) := by
    induction h with
    | nil => rfl
    | cons hfirst _ ih => rw [List.map_cons, List.map_cons, hfirst.outputOf_eq, ih]
  rw [Bot.replyOf, Bot.replyOf, houtputs]

theorem text_replyOf_eq (h : List.Forall₂ Answer.Resembles answers answers') :
    (bot.replyOf answers').text = (bot.replyOf answers).text :=
  congrArg unwords (sentences_replyOf_eq h)

theorem findings_replyOf_eq (h : List.Forall₂ Answer.Resembles answers answers') :
    (bot.replyOf answers').details.map Details.findings =
      (bot.replyOf answers).details.map Details.findings := by
  rw [Bot.details_replyOf, Bot.details_replyOf]
  induction h with
  | nil => rfl
  | cons hfirst _ ih =>
    rw [List.map_cons, List.map_cons, List.map_cons, List.map_cons, hfirst.findings_eq, ih]

end Resembles

namespace Bot

variable {bot : Bot} {clock clock' : Nat}

/-- Sentences of requests that have the same words have the same answers in worlds that are alike,
apart from the sentences that are kept in them. -/
theorem resembles_answerTop {raw raw' : String} (hwords : words raw' = words raw) {w w' : World}
    (h : w.Alike clock clock' w') :
    ((bot.answerTop raw).run w).1.Resembles ((bot.answerTop raw').run w').1 ∧
      ((bot.answerTop raw).run w).2.Alike clock clock' ((bot.answerTop raw').run w').2 := by
  have htime : w.clock + bot.config.timeout ≤ clock ↔ w'.clock + bot.config.timeout ≤ clock' := by
    rw [h.clock_left, h.clock_right]
    omega
  have hnormalized : words (bot.config.normalize raw') = words (bot.config.normalize raw) :=
    words_normalize_congr bot.config.substitutions bot.config.marks hwords
  -- sub-requests ask for the same texts on both sides
  have hask := @agree_subRequest bot bot.config.recursionLimit 1 1 (w.clock + bot.config.timeout)
    (w'.clock + bot.config.timeout) clock clock' False (Nat.le_refl _) (Or.inr rfl) htime
  have hanswers := @agree_answer_of_subRequests bot bot.config.recursionLimit 0 0 _ _ clock clock'
    False (Nat.le_refl _) (Or.inr rfl) htime raw raw' hnormalized w w' h fun _ => hask
  obtain ⟨hanswer, halike⟩ := hanswers.resolve_left fun hfalse => hfalse.1
  refine ⟨?_, halike⟩
  have hsentence := @sentence_answer bot 0 (w'.clock + bot.config.timeout) raw' w'
  rw [← hsentence] at hanswer
  exact hanswer

/-- **The spacing of a request does not matter.** Requests whose texts have the same words get the
same text and the same sentences in reply. Their sentences are matched as the same, by the same
categories of the same graphs, and come to the same; and what was said last and the predicates are
the same afterwards. -/
theorem chat_respaced (hmarks : ∀ c ∈ bot.config.marks, isBlank c = false) {w : World}
    (hbuiltIn : w.BuiltIn) {text text' : String} (hwords : words text' = words text) :
    let one := (bot.chat text).run w
    let other := (bot.chat text').run w
    other.1.text = one.1.text ∧ other.1.sentences = one.1.sentences ∧
      other.1.details.map Details.findings = one.1.details.map Details.findings ∧
      other.2.user.that = one.2.user.that ∧ other.2.user.predicates = one.2.user.predicates := by
  have halike : (requested text w).Alike w.clock w.clock (requested text' w) :=
    ⟨rfl, rfl, rfl, rfl, rfl, rfl, hbuiltIn⟩
  -- the sentences of the two texts differ in blanks only, one by one
  have hsentences := forall₂_splitSentences hmarks false hwords.symm
  have hrun : List.Forall₂ Answer.Resembles ((bot.answersTo text).run (requested text w)).1
        ((bot.answersTo text').run (requested text' w)).1 ∧
      ((bot.answersTo text).run (requested text w)).2.Alike w.clock w.clock
        ((bot.answersTo text').run (requested text' w)).2 := by
    refine forall₂_run_mapM (fun raw raw' u u' hraw hu => ?_) hsentences halike
    exact resembles_answerTop hraw.symm hu
  dsimp only
  rw [user_snd_run_chat, user_snd_run_chat, fst_run_chat, fst_run_chat]
  generalize (bot.answersTo text).run (requested text w) = answers at hrun ⊢
  generalize (bot.answersTo text').run (requested text' w) = answers' at hrun ⊢
  obtain ⟨hanswers, hworlds⟩ := hrun
  refine ⟨text_replyOf_eq hanswers, sentences_replyOf_eq hanswers, findings_replyOf_eq hanswers,
    ?_, ?_⟩
  · -- what was said last is decided by the text of the reply
    rw [User.addReply, User.addReply, text_replyOf_eq hanswers, hworlds.that]
  · rw [User.addReply, User.addReply, hworlds.predicates]

end Bot

theorem Samples.isBlank_of_mem_marks : ∀ c ∈ Samples.bot.config.marks, isBlank c = false := by
  have hall : (Samples.bot.config.marks.all fun c => isBlank c == false) = true := by decide
  intro c hc
  exact eq_of_beq (List.all_eq_true.1 hall c hc)

/-- Blanks around two greetings and between them. -/
theorem Bot.chat_respaced_hello :
    let one := (Samples.bot.chat "hello. hi!").run Samples.talkative
    let other := (Samples.bot.chat "  hello.\n hi! ").run Samples.talkative
    one.1.text = "Hi! there Hi!" ∧ other.1.text = one.1.text ∧
      other.1.sentences = one.1.sentences ∧
      other.1.details.map Details.findings = one.1.details.map Details.findings ∧
      other.2.user.that = one.2.user.that ∧ other.2.user.predicates = one.2.user.predicates :=
  ⟨by decide +kernel,
    Bot.chat_respaced Samples.isBlank_of_mem_marks Samples.builtIn_talkative (by decide +kernel)⟩

end Parley
