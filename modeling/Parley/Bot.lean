import Parley.Extension
import Parley.Template.Reader

/-!
# The bot and its world

A bot is what does not change while it talks: its configuration, its sets and the elements of its
host. What changes is its world: the graph of categories that all users share, the user that is
being talked to, the time, and the log. What is done with the world is done in sessions.

Main results: `Knowledge.fst_add_of_get?_eq_none` and `Knowledge.add_of_get?_eq_some`, a template
counts exactly when its path is new.
-/

namespace Parley

open Markup

/-- The graph of all users and the number of categories in it. -/
structure Knowledge where
  graph : Graph Template
  size : Nat

/-- Adds a template under a path, unless there is one, which is then handed back. -/
def Knowledge.add (k : Knowledge) (path : List Token) (t : Template) :
    Knowledge × Option Template :=
  match k.graph.insert path t with
  | (_, some existing) => (k, some existing)
  | (graph, none) => ({ graph, size := k.size + 1 }, none)

/-- A new path counts. -/
theorem Knowledge.fst_add_of_get?_eq_none {k : Knowledge} {path : List Token} {t : Template}
    (h : k.graph.get? path = none) :
    (k.add path t).1 = { graph := (k.graph.insert path t).1, size := k.size + 1 } := by
  simp [add, Graph.insert, h]

/-- A path that has a template does not count again, and keeps its template. -/
theorem Knowledge.add_of_get?_eq_some {k : Knowledge} {path : List Token} {t existing : Template}
    (h : k.graph.get? path = some existing) : k.add path t = (k, some existing) := by
  simp [add, Graph.insert, h]

/-- What changes while the bot talks. -/
structure World where
  knowledge : Knowledge
  /-- Whether the substitutions have been used, and what there was to report about them has been
  reported. -/
  reported : Bool
  user : User
  /-- The time, in milliseconds. -/
  clock : Nat
  /-- What has been reported, the latest first. -/
  log : List Event

/-- Something done with the world. -/
abbrev Session := StateM World

namespace Session

def report (e : Event) : Session Unit :=
  modify fun w => { w with log := e :: w.log }

def reportAll (es : List Event) : Session Unit :=
  modify fun w => { w with log := es.reverse ++ w.log }

end Session

/-- What does not change while the bot talks. -/
structure Bot where
  config : Config
  sets : SetTable
  registry : Registry

namespace Bot

/-- A bot with the computed sets and without elements of the host. -/
def new (config : Config) : Bot where
  config := config
  sets := .withBuiltIns config.comparer
  registry := []

/-- The knowledge that a bot starts with. -/
def initialKnowledge (bot : Bot) : Knowledge where
  graph := .empty bot.config.comparer
  size := 0

/-! ## Preparing sentences -/

/-- A sentence ready for matching. The first use of the substitutions reports about them. -/
def normalize (bot : Bot) (text : String) : Session String := do
  let w ← get
  if !w.reported && !bot.config.substitutions.items.isEmpty then
    Session.reportAll bot.config.substitutions.events
    modify fun w => { w with reported := true }
  return bot.config.normalize text

/-! ## Learning -/

/-- The category of a pattern and of the markup of a template, which is read first. -/
def category (bot : Bot) (pattern template : String) : Except Fault Category := do
  let template ← Template.parse bot.registry template
  let pattern ← Pattern.parse pattern
  return { pattern, template }

/-- The category of some markup. The patterns for what was said last and for the topic are read
behind the other parts. -/
def readCategory (bot : Bot) (markup : CategoryMarkup) : Except Fault Category := do
  let c ← bot.category markup.pattern markup.template
  let that? ← markup.that?.mapM Pattern.parse
  let topic? ← markup.topic?.mapM Pattern.parse
  return { c with that?, topic? }

/-- Adds a category, which may stand under a topic, to the graph of all users. The template that its
path already has is handed back. -/
def addCategory (bot : Bot) (topicName? : Option String) (c : Category) :
    Session (Option Template) := do
  let path := c.path bot.config topicName?
  let w ← get
  let (knowledge, existing?) := w.knowledge.add path c.template
  set { w with knowledge }
  if let some existing := existing? then
    Session.report (.duplicateCategory (renderPath path) c.template.source? existing.source?)
  return existing?

/-- Adds a category to the graph of all users while the bot is running. -/
def learnShared (bot : Bot) (c : Category) : Session (Option Template) := do
  let existing? ← bot.addCategory none c
  if existing?.isNone then
    Session.report (.learned (renderPath (c.path bot.config none)))
  return existing?

def learnOwn (bot : Bot) (c : Category) : Session (Option Template) := do
  let path := c.path bot.config none
  let w ← get
  let (graph, existing?) := w.user.graph.insert path c.template
  match existing? with
  | some existing =>
    Session.report (.duplicateLearned w.user.id (renderPath path) existing.source?)
  | none =>
    set { w with user := { w.user with graph } }
    Session.report (.learnedByUser w.user.id)
  return existing?

/-! ## Counting words -/

/-- The word that a token of a path stands for, if it counts. -/
def vocabularyWord? : Token → Option String
  | .word w =>
    if w == Token.thatSeparator || w == Token.topicSeparator then none else some w
  | .priority w => some (String.ofList (w.toList.dropWhile (· == '$')))
  | .wildcard _ => none
  | .set _ => none

/-- The number of words in the graph of all users and in the sets, each counted once whatever its
spellings are. -/
def vocabulary (bot : Bot) (k : Knowledge) : Nat :=
  let ofGraph := k.graph.root.tokens.filterMap vocabularyWord?
  let ofSets := bot.sets.values.flatMap PhraseSet.vocabulary
  ((ofGraph ++ ofSets).map bot.config.comparer.key).eraseDups.length

end Bot

end Parley
