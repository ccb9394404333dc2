import Parley.Config
import Parley.Pattern
import Parley.Template.Basic

/-!
# Categories

A category is a rule of conversation: a pattern for the message, a pattern for what was said last, a
pattern for the topic, and a template. The three patterns are flattened into one path of tokens with
separators between them.
-/

namespace Parley

open Text

/-- The tokens of a pattern. The words of a property of the bot become words that are tried before
all wildcards. -/
def Pattern.tokens (config : Config) (p : Pattern) : List Token :=
  p.flatMap fun
    | .word text => [.ofText text]
    | .property name => (words (config.botProperty name)).map .priority
    | .set name => [.set name]

/-- The tokens for what was said last; without a pattern anything will do. -/
def thatTokens (config : Config) : Option Pattern → List Token
  | some p => p.tokens config
  | none => [.wildcard .oneOrMore]

/-- The tokens for the topic; without a pattern they are the words of the topic that the category
stands under, and without such a topic anything will do. -/
def topicTokens (config : Config) (topicName? : Option String) : Option Pattern → List Token
  | some p => p.tokens config
  | none =>
    match words (topicName?.getD "") with
    | [] => [.wildcard .oneOrMore]
    | ws => ws.map .ofText

/-- The path of the three patterns of a category. -/
def compilePath (config : Config) (pattern : Pattern) (that? topic? : Option Pattern)
    (topicName? : Option String) : List Token :=
  pattern.tokens config ++
    .word Token.thatSeparator ::
      (thatTokens config that? ++
        .word Token.topicSeparator :: topicTokens config topicName? topic?)

/-- A rule of conversation. -/
structure Category where
  pattern : Pattern
  that? : Option Pattern := none
  topic? : Option Pattern := none
  template : Template

/-- A category as it is written, part by part. -/
structure CategoryMarkup where
  pattern : String
  that? : Option String := none
  topic? : Option String := none
  template : String
  deriving DecidableEq, Repr

/-- The path that a category is stored under, where it stands under a topic or none. -/
def Category.path (config : Config) (topicName? : Option String) (c : Category) : List Token :=
  compilePath config c.pattern c.that? c.topic? topicName?

end Parley
