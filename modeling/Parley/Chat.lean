import Parley.Evaluation

/-!
# Talking

A request is cut into sentences, and each is answered by itself: it is made ready for matching,
matched together with what the bot said last and with the topic, first in the user's own graph and
then in the graph of all users, and the template of the match is evaluated. Sub-requests are
answered in the same way, one level deeper, and share the time of the sentence they belong to.
Requests nest at most as deep as the limit says, because a search that is nested deeper gives up.

Main results:

* `length_fst_run_answersTo` — there is one answer for each sentence;
* `details_replyOf` — a reply has one entry for each answer.
-/

namespace Parley

open Text

/-- How a sentence was answered, before the safety messages are put in. -/
structure Answer where
  /-- The sentence as it was matched. -/
  sentence : String
  input : Input
  /-- The path of the match and the graph it is from. -/
  matched? : Option (String × Origin)
  /-- The text, or why the sentence was given up. -/
  result : Except Abort String

namespace Answer

def outcome (a : Answer) : Outcome :=
  match a.result, a.matched? with
  | .error cause, _ => .aborted cause
  | .ok _, none => .noMatch
  | .ok _, some _ => .matched

def details (a : Answer) : Details where
  input := a.sentence
  normalizedPath := a.input.render
  matchedPath? := a.matched?.map Prod.fst
  origin? := a.matched?.map Prod.snd
  outcome := a.outcome

end Answer

/-- The outputs of sentences as one text: trimmed, without empty ones, joined by spaces. -/
def joinOutputs (outputs : List String) : String :=
  unwords ((outputs.map trim).filter fun s => !s.isEmpty)

/-- Answers sentences one after the other, up to the first that is given up. -/
def answerAll (answer : String → Session Answer) :
    List String → Session (Except Abort (List String))
  | [] => return .ok []
  | sentence :: rest => do
    match (← answer sentence).result with
    | .error cause => return .error cause
    | .ok output => return (← answerAll answer rest).map (output :: ·)

/-- The last time that a clock can show whose seconds have 64 bits, one of them for the sign. -/
def lastInstant : Nat := UInt64.size / 2 * 1000 - 1

/-- The longest time for a sentence that can be configured. Its seconds have 64 bits, none of them
for a sign. -/
def longestTimeout : Nat := UInt64.size * 1000 - 1

/-- Some times that can be configured are beyond all that a clock can show. -/
theorem lastInstant_lt_longestTimeout : lastInstant < longestTimeout := by decide

namespace Bot

/-- What a sentence is matched as: with what the bot said last and with the topic. -/
def contextOf (bot : Bot) (sentence : String) : Session Input := do
  let user := (← get).user
  let topic ← bot.normalize (user.topic bot.config)
  return .ofTexts sentence user.that topic

def searchOptions (bot : Bot) (depth deadline clock : Nat) : SearchOptions where
  sets := bot.sets
  defaultWildcard := bot.config.defaultWildcard
  recursionLimit := bot.config.recursionLimit
  depth := depth
  expired := deadline ≤ clock
  trace := bot.config.trace

def originOf (found : Found Template) : Origin :=
  if found.root = 0 then .own else .shared

def matchEvent (found : Found Template) : Event :=
  match originOf found with
  | .own => .matchedOwn found.path
  | .shared => .matchedShared found.path found.entry.source?

/-- Answers one sentence, `depth` levels inside sub-requests. -/
def answer (bot : Bot) (depth deadline : Nat) (rawSentence : String) : Session Answer := do
  let sentence ← bot.normalize rawSentence
  let input ← bot.contextOf sentence
  let w ← get
  let options := bot.searchOptions depth deadline w.clock
  match _h : search options [w.user.graph, w.knowledge.graph] input with
  | { events, result := .error cause } =>
    Session.reportAll events
    return { sentence, input, matched? := none, result := .error cause }
  | { events, result := .ok none } =>
    Session.reportAll events
    Session.report (.noMatch w.user.id input.render)
    return { sentence, input, matched? := none, result := .ok bot.config.defaultResponse }
  | { events, result := .ok (some found) } =>
    Session.reportAll events
    Session.report (matchEvent found)
    let frame : Frame :=
      { bot, sentence, depth, deadline, captures := found.captures, path := found.path,
        template := found.entry }
    let subRequest : Answerer := fun text => do
      return (← answerAll (bot.answer (depth + 1) deadline)
        (bot.config.splitSentences false text)).map joinOutputs
    let (result, run) := (Part.evaluateAll frame subRequest found.entry.content).run
      { world := ← get }
    set run.world
    return { sentence, input, matched? := some (found.path, originOf found), result }
termination_by bot.config.recursionLimit + 1 - depth
decreasing_by
  have hdepth : depth ≤ bot.config.recursionLimit :=
    @depth_le_of_search_eq_ok _ (bot.searchOptions depth deadline w.clock) _ _ _
      (congrArg SearchResult.result _h)
  omega

/-- The message for a request that was given up. -/
def safetyMessage (bot : Bot) : Abort → String
  | .timeout => bot.config.timeoutMessage
  | .recursionLimit => bot.config.recursionLimitMessage
  | .loopLimit => bot.config.loopLimitMessage

/-- What a user reads for a sentence. -/
def outputOf (bot : Bot) (a : Answer) : String :=
  match a.result with
  | .ok output => output
  | .error cause => bot.safetyMessage cause

/-- Answers a sentence of a request. Each has its own time. The clock is taken for one that can show
every time; `answerTop?` does without this. -/
def answerTop (bot : Bot) (sentence : String) : Session Answer := do
  bot.answer 0 ((← get).clock + bot.config.timeout) sentence

/-- Records a reply with the user. The sentences of the reply are made ready for matching, so the
substitutions are in use from then on. -/
def recordReply (bot : Bot) (reply : Reply) : Session Unit := do
  unless (bot.config.splitSentences false reply.text).isEmpty do
    let _ ← bot.normalize ""
  modify fun w => { w with user := w.user.addReply bot.config reply }

/-- Answers the sentences of a request, one after the other. -/
def answersTo (bot : Bot) (text : String) : Session (List Answer) :=
  (bot.config.splitSentences false text).mapM bot.answerTop

/-- The reply that the answers to the sentences of a request make up. -/
def replyOf (bot : Bot) (answers : List Answer) : Reply :=
  let sentences := (answers.map fun a => trim (bot.outputOf a)).filter fun s => !s.isEmpty
  { text := unwords sentences, sentences, details := answers.map Answer.details }

/-- Answers a request. -/
def chat (bot : Bot) (text : String) : Session Reply := do
  let id := (← get).user.id
  Session.report (.chatRequest id text)
  modify fun w => { w with user := w.user.addRequest text }
  let reply := bot.replyOf (← bot.answersTo text)
  Session.report (.chatResponse id reply.text)
  bot.recordReply reply
  return reply

/-! ### Clocks that cannot show every time

The deadline of a sentence is computed when the sentence is begun. Where it is beyond the last time
that the clock can show, nothing goes on: the request breaks off and has no reply. Whatever was done
before stays done.
-/

/-- Answers a sentence of a request on a clock that can show no time beyond `last`. -/
def answerTop? (bot : Bot) (last : Nat) (sentence : String) : OptionT Session Answer := do
  let deadline := (← get).clock + bot.config.timeout
  if deadline ≤ last then bot.answer 0 deadline sentence
  else
    -- the sentence is made ready for matching before its deadline is computed
    let _ ← bot.normalize sentence
    failure

/-- Answers a request on a clock that can show no time beyond `last`. -/
def chat? (bot : Bot) (last : Nat) (text : String) : OptionT Session Reply := do
  let id := (← get).user.id
  Session.report (.chatRequest id text)
  modify fun w => { w with user := w.user.addRequest text }
  let reply := bot.replyOf
    (← (bot.config.splitSentences false text).mapM (bot.answerTop? last))
  Session.report (.chatResponse id reply.text)
  bot.recordReply reply
  return reply

/-- Going through a list gives as many results. -/
theorem length_fst_run_mapM {α β σ : Type} (f : α → StateM σ β) (l : List α) (s : σ) :
    ((l.mapM f).run s).1.length = l.length := by
  induction l generalizing s with
  | nil => rfl
  | cons a rest ih =>
    rw [List.mapM_cons]
    exact congrArg (· + 1) (ih _)

/-- There is one answer for each sentence of a request. -/
theorem length_fst_run_answersTo (bot : Bot) (text : String) (w : World) :
    ((bot.answersTo text).run w).1.length = (bot.config.splitSentences false text).length :=
  length_fst_run_mapM ..

/-- A reply has one entry for each answer. -/
@[simp] theorem details_replyOf (bot : Bot) (answers : List Answer) :
    (bot.replyOf answers).details = answers.map Answer.details := rfl

end Bot

end Parley
