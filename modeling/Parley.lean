import Parley.Chat
import Parley.Proofs.Arrangement
import Parley.Proofs.BareTags
import Parley.Proofs.Combining
import Parley.Proofs.FirstEntry
import Parley.Proofs.Flattening
import Parley.Proofs.Insertion
import Parley.Proofs.Keys
import Parley.Proofs.Regex.Alternatives
import Parley.Proofs.Regex.Enclosing
import Parley.Proofs.Regex.Escapes
import Parley.Proofs.Regex.Pieces
import Parley.Proofs.Regex.Plain
import Parley.Proofs.Regex.Runs
import Parley.Proofs.Regex.Sets
import Parley.Proofs.Search.Arrangement
import Parley.Proofs.Search.Choices
import Parley.Proofs.Search.Context
import Parley.Proofs.Search.Learning
import Parley.Proofs.Search.LetterCase
import Parley.Proofs.Search.Matching
import Parley.Proofs.Search.Preferred
import Parley.Proofs.Search.Priority
import Parley.Proofs.Search.Stored
import Parley.Proofs.Spacing
import Parley.Proofs.Talk.Agreement
import Parley.Proofs.Talk.Confinement
import Parley.Proofs.Talk.Context
import Parley.Proofs.Talk.Course
import Parley.Proofs.Talk.Evolution
import Parley.Proofs.Talk.Interpretation
import Parley.Proofs.Talk.Keeping
import Parley.Proofs.Talk.LastSaid
import Parley.Proofs.Talk.Limit
import Parley.Proofs.Talk.Separation
import Parley.Proofs.Talk.Spacing
import Parley.Proofs.Talk.Termination
import Parley.Proofs.Talk.Transparency
import Parley.Proofs.Markup.Nesting
import Parley.Proofs.Markup.Conservation
import Parley.Proofs.Boundaries
import Parley.Proofs.Markup.Writing
import Parley.Proofs.Regex.Literals
import Parley.Proofs.Rewriting
import Parley.Proofs.Sentences
import Parley.Proofs.Markup.Spelling
import Parley.Proofs.Talk.Searches
import Parley.Proofs.Assignments
import Parley.Proofs.Search.Listing
import Parley.Proofs.Talk.Details
import Parley.Proofs.Talk.Counting
import Parley.Proofs.Talk.Variables
import Parley.Proofs.Vocabulary
import Parley.Proofs.Walking
import Parley.Proofs.TitleCase
import Parley.Proofs.Search.Lookahead
import Parley.Proofs.Misses
import Parley.Proofs.Markup.Registration
import Parley.Proofs.Talk.Remembering
import Parley.Proofs.Search.Diagnostics
import Parley.Proofs.Talk.Diagnostics
import Parley.Proofs.Gaps
import Parley.Proofs.Search.Restoring
import Parley.Proofs.Search.Realizing
import Parley.Proofs.Markup.Attributes
