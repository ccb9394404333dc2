import Parley.Bot

/-!
# Evaluating templates

The template of a matched category is evaluated part by part, from left to right, in the frame of
its match. Sub-requests are answered by a session that is handed in, so that evaluation itself ends
because templates and scripts are finite. An abort ends the evaluation; what was done up to there
stays done.
-/

namespace Parley

open Text

/-- What is known while a template is evaluated. -/
structure Frame where
  bot : Bot
  /-- The sentence that is being answered. -/
  sentence : String
  /-- How deep inside sub-requests it is answered. -/
  depth : Nat
  /-- When the time for the request is up. -/
  deadline : Nat
  captures : Captures
  /-- The path of the category that answers. -/
  path : String
  template : Template

/-- What changes while a template is evaluated: the world, and the variables of the sentence. -/
structure Run where
  world : World
  locals : Entries String := []

/-- A step of an evaluation. An abort keeps what has changed. -/
abbrev Evaluation := ExceptT Abort (StateM Run)

/-- Answers a text as a sub-request. -/
abbrev Answerer := String → Session (Except Abort String)

namespace Evaluation

/-- Does something with the world. -/
def session {α : Type} (s : Session α) : Evaluation α := do
  let r ← get
  let (a, world) := s.run r.world
  set { r with world }
  return a

end Evaluation

namespace Frame

/-- The text that was taken by a wildcard or set of a segment, counted from one. -/
def star (f : Frame) (s : Segment) : Nat → String
  | 0 => f.bot.config.defaultWildcard
  | n + 1 => (f.captures.get s)[n]?.getD f.bot.config.defaultWildcard

/-- The value of a variable. -/
def variableValue (f : Frame) (locals : Entries String) (name : String) : String :=
  (f.bot.config.comparer.lookup locals name).getD f.bot.config.defaultPredicate

/-- Variables with one more assignment. -/
def assignVariable (f : Frame) (locals : Entries String) (name value : String) :
    Entries String :=
  locals.assign (f.bot.config.comparer.key name) value

/-- Gives up if the time is up. -/
def checkTime (f : Frame) : Evaluation Unit := do
  let w := (← get).world
  if f.deadline ≤ w.clock then
    Evaluation.session (Session.report (.templateTimeout w.user.id f.sentence))
    throw .timeout

/-- Gives up in a round beyond the limit, or if the time is up. -/
def checkLoop (f : Frame) (round : Nat) : Evaluation Unit := do
  if round > f.bot.config.loopLimit then
    let w := (← get).world
    Evaluation.session (Session.report (.loopLimitExceeded w.user.id f.sentence))
    throw .loopLimit
  f.checkTime

/-- Answers a text as a sub-request one level deeper. -/
def request (f : Frame) (answer : Answerer) (text : String) : Evaluation String := do
  f.checkTime
  Evaluation.session (Session.report (.subRequest (f.depth + 1) text))
  match ← Evaluation.session (answer text) with
  | .ok output => return output
  | .error cause => throw cause

/-- The value under a name. -/
def lookup (f : Frame) (name : String) : Scope → Evaluation String
  | .variable => return f.variableValue (← get).locals name
  | .predicate => return (← get).world.user.predicate f.bot.config name

/-- Keeps a value under a name. -/
def assign (f : Frame) (name value : String) : Scope → Evaluation Unit
  | .variable => modify fun r => { r with locals := f.assignVariable r.locals name value }
  | .predicate =>
    modify fun r =>
      { r with world := { r.world with user := r.world.user.setPredicate name value } }

/-- What an element of the host can see. -/
def view (f : Frame) (r : Run) : View where
  sentence := f.sentence
  depth := f.depth
  path := f.path
  template := f.template
  captures := f.captures
  locals := r.locals
  config := f.bot.config
  sets := f.bot.sets
  graph := r.world.knowledge.graph
  size := r.world.knowledge.size
  user := r.world.user

/-- Learns the category of some markup. -/
def learn (f : Frame) (learner : Learner) (markup : CategoryMarkup) :
    Evaluation (Except Markup.Fault (Option Template)) := do
  match f.bot.readCategory markup with
  | .error fault => return .error fault
  | .ok c =>
    let existing? ← match learner with
      | .user => Evaluation.session (f.bot.learnOwn c)
      | .everyone => Evaluation.session (f.bot.learnShared c)
    return .ok existing?

end Frame

/-- Does what a script says, in a frame. `content` evaluates the content of its element. -/
def Script.run (f : Frame) (answer : Answerer) (content : Evaluation String) :
    Script → Evaluation String
  | .done text => return text
  | .abort cause => throw cause
  | .content next => do (next (← content)).run f answer content
  | .look next => do (next (f.view (← get))).run f answer content
  | .loop round next => do
    f.checkLoop round
    next.run f answer content
  | .request text next => do (next (← f.request answer text)).run f answer content
  | .assign name scope value next => do
    f.assign name value scope
    next.run f answer content
  | .learn learner markup next => do
    (next (← f.learn learner markup)).run f answer content
  | .wait time next => do
    modify fun r => { r with world := { r.world with clock := r.world.clock + time } }
    next.run f answer content

mutual

/-- Evaluates a part. -/
def Part.evaluate (f : Frame) (answer : Answerer) : Part → Evaluation String
  | .text s => return s
  | .star segment index => return f.star segment index
  | .srai content => do
    let text ← Part.evaluateAll f answer content
    f.request answer (trim text)
  | .get name scope => f.lookup name scope
  | .set name scope content => do
    let value := trim (← Part.evaluateAll f answer content)
    f.assign name value scope
    return value
  | .think content => do
    let _ ← Part.evaluateAll f answer content
    return ""
  | .extension name attributes content =>
    match f.bot.registry.get? name with
    | some element =>
      (element.script { name, attributes, content }).run f answer
        (Part.evaluateAll f answer content)
    | none => Part.evaluateAll f answer content

/-- Evaluates parts from left to right and puts their texts together. -/
def Part.evaluateAll (f : Frame) (answer : Answerer) : List Part → Evaluation String
  | [] => return ""
  | part :: rest => do
    let first ← part.evaluate f answer
    let others ← Part.evaluateAll f answer rest
    return first ++ others

end

end Parley
