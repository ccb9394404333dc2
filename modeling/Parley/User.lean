import Parley.Category
import Parley.Graph
import Parley.History
import Parley.Reply

/-!
# Users

A user has predicates, a history of requests and replies, what the bot said last, and a graph of
categories that only this user has. Main result: `predicate_setPredicate` says what one assignment
does to every look-up.
-/

namespace Parley

/-- One who talks with the bot. -/
structure User where
  id : String
  /-- The last sentence that the bot has said, as it is matched. -/
  that : String
  /-- Values by the keys of their names, without regard to case. -/
  predicates : Entries String
  graph : Graph Template
  requests : History String
  replies : History Reply

namespace User

/-- A user of whom nothing is known. -/
def new (config : Config) (id : String) : User where
  id := id
  that := config.defaultHistory
  predicates := []
  graph := .empty config.comparer
  requests := .empty config.historySize
  replies := .empty config.historySize

/-- The value of a predicate, or its default. -/
def predicate (config : Config) (user : User) (name : String) : String :=
  (user.predicates.lookup (Comparer.ignoreCase.key name)).getD (config.defaultPredicateFor name)

def topic (config : Config) (user : User) : String :=
  user.predicate config "topic"

/-- Gives a predicate a value. Names are compared without regard to case, whatever the comparer of
the bot is. -/
def setPredicate (user : User) (name value : String) : User :=
  { user with predicates := user.predicates.assign (Comparer.ignoreCase.key name) value }

def addRequest (user : User) (text : String) : User :=
  { user with requests := user.requests.add text }

/-- The last sentence of a text that is not empty when it is ready for matching. -/
def lastSentence? (config : Config) (text : String) : Option String :=
  ((config.splitSentences false text).reverse.map config.normalize).find? fun s => !s.isEmpty

/-- Records a reply. Its last sentence becomes what the bot has said last. -/
def addReply (config : Config) (user : User) (reply : Reply) : User :=
  { user with
    replies := user.replies.add reply
    that := (lastSentence? config reply.text).getD user.that }

/-- The `n`th most recent request. -/
def request (config : Config) (user : User) (n : Nat) : String :=
  (user.requests.get? n).getD config.defaultHistory

/-- The text of the `n`th most recent reply. -/
def reply (config : Config) (user : User) (n : Nat) : String :=
  ((user.replies.get? n).map Reply.text).getD config.defaultHistory

/-- An assignment is seen under every spelling of the name, and under no other name. -/
theorem predicate_setPredicate (config : Config) (user : User) (name value other : String) :
    (user.setPredicate name value).predicate config other =
      if Comparer.ignoreCase.equals other name then value else user.predicate config other := by
  simp only [predicate, setPredicate, Entries.lookup_assign, Comparer.equals_iff_key_eq]
  split <;> rfl

end User

end Parley
