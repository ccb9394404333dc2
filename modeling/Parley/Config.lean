import Parley.Comparer
import Parley.Sentence
import Parley.Substitution
import Parley.Trace

/-!
# Configuration

Everything that the library takes from outside: limits, the texts that stand in where there is no
answer, the marks that end sentences, the comparer, the properties of the bot, and the substitutions
that prepare a sentence for matching.
-/

namespace Parley

/-- The settings of a bot. -/
structure Config where
  /-- The value of a predicate or property that has none. -/
  defaultPredicate : String := "unknown"
  /-- What a new user's bot has said last, and the answer to look-ups beyond the history. -/
  defaultHistory : String := "nil"
  /-- What a wildcard took that took no words, and what stands for a capture that there is not. -/
  defaultWildcard : String := "nil"
  /-- How many requests and responses are kept for a user. -/
  historySize : Nat := 16
  /-- The answer to a sentence that no category matches. -/
  defaultResponse : String := "I have no answer for that."
  /-- The time for one sentence of a request, in milliseconds. -/
  timeout : Nat := 10000
  timeoutMessage : String := "That query took too long for me to process."
  /-- How deep sub-requests may nest. -/
  recursionLimit : Nat := 50
  recursionLimitMessage : String := "Too much recursion in AIML."
  /-- How often one looping element may run. -/
  loopLimit : Nat := 100
  loopLimitMessage : String := "Too much looping in condition."
  /-- The marks that end sentences. -/
  marks : List Char := ['.', '!', '?', ';']
  comparer : Comparer := .ignoreCase
  /-- The properties of the bot, which patterns may refer to. -/
  botProperties : Entries String := []
  /-- The values of predicates that a user does not have. -/
  defaultPredicates : Entries String := []
  substitutions : Substitutions := .none
  trace : Trace := .none

namespace Config

def botProperty (config : Config) (name : String) : String :=
  (config.comparer.lookup config.botProperties name).getD config.defaultPredicate

/-- The value of a predicate for users that do not have it. -/
def defaultPredicateFor (config : Config) (name : String) : String :=
  (config.comparer.lookup config.defaultPredicates name).getD config.defaultPredicate

def splitSentences (config : Config) (keepMarks : Bool) (text : String) : List String :=
  Parley.splitSentences config.marks keepMarks text

/-- A sentence ready for matching. -/
def normalize (config : Config) (text : String) : String :=
  Parley.normalize config.substitutions config.marks text

end Config

end Parley
