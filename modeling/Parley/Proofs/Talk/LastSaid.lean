import Parley.Proofs.Talk.Noting
import Parley.Proofs.Talk.Separation

/-!
# What the bot said last

What the bot said last is kept with the user by itself, as it is matched, and not looked up in the
history of the replies, which may hold as few of them as it likes. It is the last sentence that was
not empty when it was made ready for matching, of the last reply that had one. While a request is
answered it does not change, however many sentences there are and however deep sub-requests nest:
all searches are made with what was said last before the request.

Main results:

* `Bot.SaidLast.concat` — how one more reply changes what was said last;
* `Bot.converse_that` — what was said last to one of several users, and what is searched for with
  it.
-/

namespace Parley

open Text

/-! ## The last sentence of a text -/

namespace Bot

/-- Whether no sentence of a text is left when it is made ready for matching. -/
def SaysNothing (bot : Bot) (text : String) : Prop :=
  ∀ s ∈ bot.config.splitSentences false text, bot.config.normalize s = ""

/-- Whether a text is what was said last in some replies: the default as long as nothing was said,
and from then on the last sentence that is left in the last reply in which one is left. -/
structure SaidLast (bot : Bot) (replies : List Reply) (that : String) : Prop where
  nothing : (∀ r ∈ replies, bot.SaysNothing r.text) → that = bot.config.defaultHistory
  something : ∀ earlier r later before s after,
    replies = earlier ++ r :: later →
    bot.config.splitSentences false r.text = before ++ s :: after →
    bot.config.normalize s ≠ "" →
    (∀ t ∈ after, bot.config.normalize t = "") →
    (∀ r' ∈ later, bot.SaysNothing r'.text) →
    that = bot.config.normalize s

variable {bot : Bot} {text : String}

theorem SaysNothing.lastSentence? (h : bot.SaysNothing text) :
    User.lastSentence? bot.config text = none := by
  rw [User.lastSentence?, List.find?_eq_none]
  intro t ht
  obtain ⟨s, hs, rfl⟩ := List.mem_map.1 ht
  rw [h s (List.mem_reverse.1 hs)]
  decide

/-- The last sentence that is left is found from the end. -/
theorem lastSentence?_eq_some {before after : List String} {s : String}
    (hsentences : bot.config.splitSentences false text = before ++ s :: after)
    (hs : bot.config.normalize s ≠ "") (hafter : ∀ t ∈ after, bot.config.normalize t = "") :
    User.lastSentence? bot.config text = some (bot.config.normalize s) := by
  have hskip : (after.reverse.map bot.config.normalize).find? (fun s => !s.isEmpty) = none := by
    rw [List.find?_eq_none]
    intro t ht
    obtain ⟨s, hs, rfl⟩ := List.mem_map.1 ht
    rw [hafter s (List.mem_reverse.1 hs)]
    decide
  have hkeep : [bot.config.normalize s].find? (fun s => !s.isEmpty) =
      some (bot.config.normalize s) := by
    rw [List.find?_singleton, if_pos (by simpa using hs)]
  rw [User.lastSentence?, hsentences, List.reverse_append, List.reverse_cons, List.append_assoc,
    List.map_append, List.find?_append, hskip, Option.none_or, List.map_append, List.find?_append]
  show (List.find? _ [bot.config.normalize s]).or _ = _
  rw [hkeep, Option.some_or]

namespace SaidLast

variable {replies : List Reply} {that : String}

/-- Before the first reply, the default was said last. -/
theorem nil : bot.SaidLast [] bot.config.defaultHistory := by
  refine ⟨fun _ => rfl, ?_⟩
  intro earlier r later before s after hreplies
  simp at hreplies

/-- A reply becomes what was said last if there is something in it. -/
theorem concat (h : bot.SaidLast replies that) (r : Reply) :
    bot.SaidLast (replies ++ [r]) ((User.lastSentence? bot.config r.text).getD that) := by
  refine ⟨?_, ?_⟩
  · intro hnothing
    have hr : bot.SaysNothing r.text := hnothing r (by simp)
    rw [hr.lastSentence?, Option.getD_none]
    exact h.nothing fun r' hr' => hnothing r' (by simp [hr'])
  · intro earlier r' later before s after hreplies hsentences hs hafter hlater
    -- the reply in question is the new one, or the new one says nothing
    rcases List.eq_nil_or_concat' later with rfl | ⟨later, last, rfl⟩
    · obtain ⟨-, hr⟩ := List.append_inj' hreplies rfl
      obtain rfl := List.singleton_inj.1 hr
      rw [lastSentence?_eq_some hsentences hs hafter, Option.getD_some]
    · rw [← List.cons_append, ← List.append_assoc] at hreplies
      obtain ⟨hbefore, hlast⟩ := List.append_inj' hreplies rfl
      obtain rfl := List.singleton_inj.1 hlast
      have hr : bot.SaysNothing r.text := hlater r (by simp)
      rw [hr.lastSentence?, Option.getD_none]
      refine h.something earlier r' later before s after hbefore hsentences hs hafter ?_
      exact fun r' hr' => hlater r' (by simp [hr'])

end SaidLast

end Bot

/-! ## Conversations -/

section Company

variable {ι : Type} [DecidableEq ι] {bot : Bot}

namespace Bot

/-- A request changes what was said last by its reply, and by nothing else. -/
theorem that_chat (bot : Bot) (text : String) (w : World) :
    ((bot.chat text).run w).2.user.that =
      (User.lastSentence? bot.config ((bot.chat text).run w).1.text).getD w.user.that := by
  have hanswers : ((bot.answersTo text).run (requested text w)).2.user.that = w.user.that :=
    (evolves_answersTo text (requested text w)).that_eq
  rw [user_snd_run_chat, User.addReply, hanswers]

/-- The replies to one of the users. -/
def repliesTo (i : ι) (replies : List (ι × Reply)) : List Reply :=
  (replies.filter fun reply => reply.1 = i).map Prod.snd

/-- One request keeps track of what was said last. -/
theorem SaidLast.answerCall {c : Company ι} {i : ι} {replies : List Reply}
    (h : bot.SaidLast replies (c.users i).that) (call : Call ι) :
    bot.SaidLast (replies ++ repliesTo i [((bot.answerCall call).run c).1])
      (((bot.answerCall call).run c).2.users i).that := by
  by_cases hcall : call.user = i
  · subst hcall
    have hthat := bot.that_chat call.text ((c.pass call.wait).world call.user)
    rw [run_answerCall]
    generalize (bot.chat call.text).run ((c.pass call.wait).world call.user) = chatted at hthat ⊢
    have hreplies : repliesTo call.user [(call.user, chatted.1)] = [chatted.1] := by
      simp [repliesTo]
    show bot.SaidLast _ (Function.update c.users _ chatted.2.user _).that
    rw [Function.update_self, hthat, hreplies]
    exact h.concat chatted.1
  · have hreplies : repliesTo i [((bot.answerCall call).run c).1] = [] := by
      simp [repliesTo, fst_answerCall, hcall]
    rw [users_answerCall_of_ne hcall, hreplies, List.append_nil]
    exact h

theorem SaidLast.converse {i : ι} (calls : List (Call ι)) {c : Company ι} {replies : List Reply}
    (h : bot.SaidLast replies (c.users i).that) :
    bot.SaidLast (replies ++ repliesTo i ((bot.converse calls).run c).1)
      (((bot.converse calls).run c).2.users i).that := by
  -- induction on the requests, with the replies that came before them
  induction calls generalizing c replies with
  | nil =>
    show bot.SaidLast (replies ++ []) _
    rw [List.append_nil]
    exact h
  | cons call rest ih =>
    have hrest := ih (h.answerCall call)
    rw [run_converse_cons]
    generalize (bot.answerCall call).run c = first at hrest ⊢
    rw [List.append_assoc] at hrest
    have hreplies : ∀ others, repliesTo i [first.1] ++ repliesTo i others =
        repliesTo i (first.1 :: others) := by
      intro others
      rw [repliesTo, repliesTo, repliesTo, ← List.map_append, ← List.filter_append]
      rfl
    rw [hreplies] at hrest
    exact hrest

/-- **What was said last to a user,** after any number of requests of this and of other users, is
the last sentence that is left in the last reply to this user in which one is left, or the default
if there is none; the length of the history of replies has no part in this. For all sentences of the
next request, and in all sub-requests that these lead to, it is searched for with this text as what
was said last. -/
theorem converse_that {c : Company ι} {i : ι}
    (hnew : (c.users i).that = bot.config.defaultHistory) (calls : List (Call ι)) :
    let done := (bot.converse calls).run c
    let that := (done.2.users i).that
    bot.SaidLast (repliesTo i done.1) that ∧
      ∀ wait text,
        let w := requested text ((done.2.pass wait).world i)
        let courses := bot.courses (bot.config.splitSentences false text) w
        courses.map Course.answer = ((bot.answersTo text).run w).1 ∧
          ∀ course ∈ courses, ∀ n ∈ course.notes, n.IsAbout that := by
  have hstart : bot.SaidLast [] (c.users i).that := by
    rw [hnew]
    exact .nil
  refine ⟨hstart.converse calls, ?_⟩
  intro wait text
  generalize (bot.converse calls).run c = done
  obtain ⟨-, hanswers, -, hnoted⟩ := bot.noted_courses (bot.config.splitSentences false text)
    (requested text ((done.2.pass wait).world i))
  exact ⟨hanswers, fun course hcourse => (hnoted course hcourse).isAbout⟩

end Bot

end Company

/-- A greeting is answered by two sentences, and a request without sentences changes nothing. -/
theorem Bot.converse_that_hello :
    let calls : List (Call (Fin 2)) :=
      [{ user := 0, text := "hello" }, { user := 1, text := "hi" }, { user := 0, text := "" }]
    let done := (Samples.bot.converse calls).run Samples.company
    (repliesTo 0 done.1).map Reply.text = ["Hi! there", ""] ∧
      (done.2.users 0).that = "there" ∧
      Samples.bot.SaidLast (repliesTo 0 done.1) (done.2.users 0).that :=
  ⟨by decide +kernel, by decide +kernel,
    (@Bot.converse_that _ _ Samples.bot Samples.company 0 rfl _).1⟩

end Parley
