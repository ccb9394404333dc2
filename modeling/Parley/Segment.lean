import Parley.Token

/-!
# Segments and inputs

A sentence is matched together with what the bot said last and with the topic. The three parts are
the segments of an input; its words are those of the message, a separator, those of what was said,
another separator, and those of the topic.

Main results: `length_words`, `start_le_stop` and `start_advance` place the segments in the words.
-/

namespace Parley

open Text

/-- A part of an input. -/
inductive Segment where
  | message
  | that
  | topic
  deriving DecidableEq, Repr

namespace Segment

/-- The segment behind a segment's separator; nothing follows the topic. -/
def advance : Segment → Segment
  | .message => .that
  | .that => .topic
  | .topic => .topic

/-- The separator behind a segment. -/
def separator? : Segment → Option String
  | .message => some Token.thatSeparator
  | .that => some Token.topicSeparator
  | .topic => none

end Segment

/-- What a sentence is matched as. -/
structure Input where
  message : List String
  that : List String
  topic : List String
  deriving DecidableEq, Repr

namespace Input

/-- The input of three texts. -/
def ofTexts (message that topic : String) : Input :=
  { message := Text.words message, that := Text.words that, topic := Text.words topic }

/-- The words of one segment. -/
def segment (input : Input) : Segment → List String
  | .message => input.message
  | .that => input.that
  | .topic => input.topic

/-- All words of an input, with its separators. -/
def words (input : Input) : List String :=
  input.message ++ Token.thatSeparator :: (input.that ++ Token.topicSeparator :: input.topic)

/-- An input as text. -/
def render (input : Input) : String := unwords input.words

/-- Where a segment starts in the words. -/
def start (input : Input) : Segment → Nat
  | .message => 0
  | .that => input.message.length + 1
  | .topic => input.message.length + 1 + (input.that.length + 1)

/-- Where a segment stops in the words: at its separator, or at the end. -/
def stop (input : Input) (s : Segment) : Nat :=
  input.start s + (input.segment s).length

/-- Whether a position holds one of the separators. -/
def isBoundary (input : Input) (position : Nat) : Bool :=
  position == input.stop .message || position == input.stop .that

theorem start_le_stop (input : Input) (s : Segment) : input.start s ≤ input.stop s := by
  simp [stop]

theorem length_words (input : Input) : input.words.length = input.stop .topic := by
  simp only [words, stop, start, segment, List.length_append, List.length_cons]
  omega

/-- A segment that has a separator stops where the next one's start is one further. -/
theorem start_advance {s : Segment} (input : Input) (h : s ≠ .topic) :
    input.start s.advance = input.stop s + 1 := by
  cases s with
  | message => simp [start, stop, segment, Segment.advance]
  | that => simp only [start, stop, segment, Segment.advance]; omega
  | topic => exact absurd rfl h

end Input

end Parley
