import Parley.Regex.Basic
import Parley.Regex.Property

/-!
# Reading expressions

The written form of expressions: alternatives, groups (numbered, named, or not captured), greedy and
lazy repetitions, bracketed sets with set operations, escapes, and flags that hold to the end of
their group. There is neither look-around nor a reference back to a group. A text that is not the
written form of an expression is refused without a reason; nothing in the library asks for one.
-/

namespace Parley.Regex

open Text

/-! ## Flags -/

/-- The flags that are on at some point of an expression. -/
structure Flags where
  /-- `i`: letters stand for themselves in any case. -/
  ignoreCase : Bool := false
  /-- `m`: `^` and `$` are also about lines. -/
  multiLine : Bool := false
  /-- `s`: `.` accepts a line feed. -/
  dotAll : Bool := false
  /-- `U`: repetitions are lazy, and greedy with a question mark. -/
  swapGreed : Bool := false
  /-- `u`: classes are of all characters, not of ASCII alone. -/
  unicode : Bool := true
  /-- `x`: blanks and comments are skipped. -/
  verbose : Bool := false
  /-- `R`: lines end in `\r`, `\n` or `\r\n`. -/
  crlf : Bool := false
  deriving DecidableEq, Repr

/-- Switches one flag, named by its letter. -/
def Flags.set? (f : Flags) (letter : Char) (on : Bool) : Option Flags :=
  match letter with
  | 'i' => some { f with ignoreCase := on }
  | 'm' => some { f with multiLine := on }
  | 's' => some { f with dotAll := on }
  | 'U' => some { f with swapGreed := on }
  | 'u' => some { f with unicode := on }
  | 'x' => some { f with verbose := on }
  | 'R' => some { f with crlf := on }
  | _ => none

/-- The flags after a list of switches, which no letter and no hyphen may enter twice, and what
follows the list. `done` are the letters and hyphens so far; `on` says what a letter does now. -/
def readFlags (f : Flags) (done : List Char) (on : Bool) : List Char → Option (Flags × List Char)
  | [] => none
  | c :: rest =>
    if c == ':' || c == ')' then if done.head? == some '-' then none else some (f, c :: rest)
    else if done.contains c then none
    else if c == '-' then readFlags f (c :: done) false rest
    else (f.set? c on).bind fun f => readFlags f (c :: done) on rest

/-! ## Blanks and numbers -/

/-- Skips blanks and comments. `inComment` is set between `#` and the end of its line. -/
def skipVerbose (inComment : Bool) : List Char → List Char
  | [] => []
  | c :: rest =>
    if inComment then skipVerbose (c != '\n') rest
    else if isBlank c then skipVerbose false rest
    else if c == '#' then skipVerbose true rest
    else c :: rest

def skip (f : Flags) (s : List Char) : List Char :=
  if f.verbose then skipVerbose false s else s

theorem length_skipVerbose (inComment : Bool) (s : List Char) :
    (skipVerbose inComment s).length ≤ s.length := by
  induction s generalizing inComment with
  | nil => simp [skipVerbose]
  | cons c rest ih =>
    rw [skipVerbose]
    have hfalse := ih false
    have htrue := ih true
    have hcomment := ih (c != '\n')
    split
    · simp only [List.length_cons]; omega
    · split
      · simp only [List.length_cons]; omega
      · split
        · simp only [List.length_cons]; omega
        · exact Nat.le_refl _

theorem length_skip (f : Flags) (s : List Char) : (skip f s).length ≤ s.length := by
  unfold skip
  split
  · exact length_skipVerbose false s
  · exact Nat.le_refl _

/-- Reads digits; verbose mode skips blanks and comments after each. -/
def readDigits (f : Flags) (isDigit : Char → Bool) (s : List Char) : List Char × List Char :=
  match s with
  | [] => ([], [])
  | c :: rest =>
    if isDigit c then
      let (digits, after) := readDigits f isDigit (skip f rest)
      (c :: digits, after)
    else ([], c :: rest)
termination_by s.length
decreasing_by
  have := length_skip f rest
  simp only [List.length_cons]
  omega

/-- The number that digits of a base up to sixteen stand for. -/
def numberOf (base : Nat) (digits : List Char) : Nat :=
  digits.foldl (fun n d => n * base + digitValue d) 0
where
  digitValue (d : Char) : Nat :=
    if d.isDigit then d.toNat - '0'.toNat else d.toLower.toNat - 'a'.toNat + 10

def isHexDigit (c : Char) : Bool :=
  c.isDigit || ('a' ≤ c && c ≤ 'f') || ('A' ≤ c && c ≤ 'F')

/-- A decimal number below 2 ^ 32 with blanks around it, if there are digits, and what follows. -/
def readDecimal (f : Flags) (s : List Char) : Option (Option Nat × List Char) :=
  let (digits, after) := readDigits f Char.isDigit (s.dropWhile isBlank)
  let after := skip f (after.dropWhile isBlank)
  if digits.isEmpty then some (none, after)
  else
    let n := numberOf 10 digits
    if n < UInt32.size then some (some n, after) else none

/-- The bounds of a counted repetition, read behind its opening brace, and what follows the closing
brace. -/
def readBounds (f : Flags) (s : List Char) : Option (Nat × Option Nat × List Char) := do
  let (first?, s) ← readDecimal f (skip f s)
  match s with
  | ',' :: s =>
    let s := skip f s
    match s with
    | '\x7d' :: s => return (← first?, none, s)
    | _ =>
      let first ← first?
      let (last?, s) ← readDecimal f s
      let last ← last?
      match s with
      | '\x7d' :: s => if first ≤ last then return (first, some last, s) else none
      | _ => none
  | '\x7d' :: s =>
    let first ← first?
    return (first, some first, s)
  | _ => none

/-! ## Escapes and single characters -/

/-- What stands for one character or for none. -/
inductive Atom where
  | literal (c : Char)
  | set (s : CharSet)
  | look (l : Look)
  deriving DecidableEq, Repr

/-- The characters that mean something of their own outside of sets. -/
def isMeta (c : Char) : Bool :=
  ['\\', '.', '+', '*', '?', '(', ')', '|', '[', ']', '\x7b', '\x7d', '^', '$', '#', '&', '-',
   '~'].contains c

/-- The written form of a text that stands for itself. -/
def escape : List Char → List Char
  | [] => []
  | c :: rest => if isMeta c then '\\' :: c :: escape rest else c :: escape rest

/-- The character with a code point, if there is one. -/
def charOf? (n : Nat) : Option Char :=
  if h : n.isValidChar then some (Char.ofNatAux n h) else none

/-- Reads a code point in hexadecimal digits: as many as the letter of the escape asks for, or any
number of them between braces. -/
def readHex (f : Flags) (count : Nat) (s : List Char) : Option (Char × List Char) :=
  match skip f s with
  | '\x7b' :: s =>
    match readDigits f isHexDigit (skip f s) with
    | (d :: ds, '\x7d' :: s) => (charOf? (numberOf 16 (d :: ds))).map fun c => (c, skip f s)
    | _ => none
  | s =>
    let (digits, after) := readCount count s
    if digits.length == count then
      (charOf? (numberOf 16 digits)).map fun c => (c, skip f after)
    else none
where
  /-- Up to `n` digits and what follows them; verbose mode skips between digits. -/
  readCount : Nat → List Char → List Char × List Char
    | 0, s => ([], s)
    | _ + 1, [] => ([], [])
    | n + 1, c :: rest =>
      if isHexDigit c then
        let (digits, after) := readCount n (if n = 0 then rest else skip f rest)
        (c :: digits, after)
      else ([], c :: rest)

/-- A set of ASCII characters and its complement, which only holds with Unicode classes. -/
def shorthandSet? (f : Flags) (letter : Char) : Option CharSet :=
  let positive (p : Property) (ascii : String) : Option CharSet :=
    if f.unicode then some (.property p) else asciiClass? ascii
  let negative (p : Property) : Option CharSet :=
    if f.unicode then some (.compl (.property p)) else none
  match letter with
  | 'd' => positive .digit "digit"
  | 's' => positive .blank "space"
  | 'w' => positive .word "word"
  | 'D' => negative .digit
  | 'S' => negative .blank
  | 'W' => negative .word
  | _ => none

/-- Closes a set under case if case is ignored. -/
def foldSet (f : Flags) (s : CharSet) : CharSet :=
  if f.ignoreCase then if f.unicode then .fold s else .foldAscii s else s

/-- Reads the set that `\p` or `\P` names. -/
def readProperty (f : Flags) (negated : Bool) (s : List Char) : Option (CharSet × List Char) :=
  let found? : Option (CharSet × List Char) :=
    match skip f s with
    | '\x7b' :: s => (readName s).bind fun (name, s) => (namedSet? name).map fun set => (set, s)
    | '\\' :: _ => none
    | c :: s => (categorySet? (looseName [c])).map fun set => (set, skip f s)
    | [] => none
  found?.bind fun (set, s) =>
    if f.unicode then
      let set := foldSet f set
      some (if negated then .compl set else set, s)
    else none
where
  /-- The name up to a closing brace. Verbose mode skips within names. -/
  readName (s : List Char) : Option (List Char × List Char) :=
    match splitFirst ['\x7d'] s with
    | none => none
    | some (name, after) => some (if f.verbose then name.filter (!isBlank ·) else name, after)

/-- The word test that a name in braces stands for. -/
def namedTest? (f : Flags) (name : List Char) : Option Look :=
  match String.ofList name with
  | "start" => some (.wordStart !f.unicode)
  | "end" => some (.wordEnd !f.unicode)
  | "start-half" => some (.wordStartHalf !f.unicode)
  | "end-half" => some (.wordEndHalf !f.unicode)
  | _ => none

/-- Reads the word test that `\b` and braces behind it stand for. Braces with anything else in them
are left for a counted repetition. -/
def readWordTest (f : Flags) (s : List Char) : Option (Look × List Char) :=
  let isNameChar (c : Char) : Bool := c.isAlpha || c == '-'
  let plain : Option (Look × List Char) := some (.wordBoundary !f.unicode, s)
  match s with
  | '\x7b' :: inner =>
    match skip f inner with
    | [] => none
    | c :: rest =>
      if !isNameChar c then plain
      else
        match readDigits f isNameChar (c :: rest) with
        | (name, '\x7d' :: after) => (namedTest? f name).map fun test => (test, after)
        | _ => none
  | _ => plain

/-- Whether two hexadecimal digits stand for a single byte that is not a character of ASCII, which
is so with ASCII classes; no text has such a byte alone. -/
def standsForByte (f : Flags) (d : Char) (s : List Char) : Bool :=
  !f.unicode && 128 ≤ d.toNat && (skip f s).head? != some '\x7b'

def readEscape (f : Flags) : List Char → Option (Atom × List Char)
  | [] => none
  | c :: rest =>
    let literal (d : Char) : Option (Atom × List Char) := some (.literal d, rest)
    let hex (count : Nat) : Option (Atom × List Char) :=
      (readHex f count rest).map fun (d, rest) => (.literal d, rest)
    match c with
    | 'x' =>
      match readHex f 2 rest with
      | none => none
      | some (d, after) =>
        if standsForByte f d rest then none else some (.literal d, after)
    | 'u' => hex 4
    | 'U' => hex 8
    | 'p' => (readProperty f false rest).map fun (s, rest) => (.set s, rest)
    | 'P' => (readProperty f true rest).map fun (s, rest) => (.set s, rest)
    | 'a' => literal '\x07'
    | 'f' => literal '\x0c'
    | 't' => literal '\t'
    | 'n' => literal '\n'
    | 'r' => literal '\r'
    | 'v' => literal '\x0b'
    | 'A' => some (.look .textStart, rest)
    | 'z' => some (.look .textEnd, rest)
    | 'b' => (readWordTest f rest).map fun (l, rest) => (.look l, rest)
    | 'B' => some (.look (.notWordBoundary !f.unicode), rest)
    | '<' => some (.look (.wordStart !f.unicode), rest)
    | '>' => some (.look (.wordEnd !f.unicode), rest)
    | _ =>
      if ['d', 's', 'w', 'D', 'S', 'W'].contains c then
        (shorthandSet? f c).map fun s => (.set s, rest)
      else if c.toNat < 128 && !c.isAlphanum then literal c
      else none

/-! ## Bracketed sets -/

/-- The operations between parts of a bracketed set. -/
inductive SetOp where
  | intersection
  | difference
  | symmetricDifference
  deriving DecidableEq, Repr

/-- Combines two parts of a set; where case is ignored, each part is closed under case first. -/
def SetOp.apply (op : SetOp) (f : Flags) (a b : CharSet) : CharSet :=
  match op with
  | .intersection => .inter (foldSet f a) (foldSet f b)
  | .difference => .diff (foldSet f a) (foldSet f b)
  | .symmetricDifference => .symmDiff (foldSet f a) (foldSet f b)

/-- What has been read of a bracketed set: whether it is negated, what stands before the last
operation, and the items since then. -/
structure PartialSet where
  negated : Bool
  left : Option (SetOp × CharSet) := none
  items : List CharSet := []

/-- What stands before the end or before a further operation, as one set. -/
def PartialSet.joined (f : Flags) (p : PartialSet) : CharSet :=
  let right := CharSet.unionAll p.items.reverse
  match p.left with
  | none => right
  | some (op, left) => op.apply f left right

/-- A finished set: closed under case if case is ignored, then negated if that is asked for. A set
of ASCII characters cannot be negated. -/
def PartialSet.finish? (f : Flags) (p : PartialSet) : Option CharSet :=
  let set := foldSet f (p.joined f)
  if p.negated then if f.unicode then some (.compl set) else none else some set

/-- Reads an opening bracket's continuation: a caret, hyphens, and a closing bracket that stands for
itself because nothing precedes it. -/
def openSet (f : Flags) (s : List Char) : PartialSet × List Char :=
  let s := skip f s
  let (negated, s) :=
    match s with
    | '^' :: s => (true, skip f s)
    | s => (false, s)
  let (hyphens, s) := readDigits f (· == '-') s
  let items := hyphens.map CharSet.char
  match items, s with
  | [], ']' :: s => ({ negated, items := [.char ']'] }, skip f s)
  | items, s => ({ negated, items }, s)

/-- A named class such as `[:alpha:]`, read behind its first bracket. -/
def readAsciiClass (f : Flags) (s : List Char) : Option (Option CharSet × List Char) :=
  match s with
  | ':' :: s =>
    let (negated, s) :=
      match s with
      | '^' :: s => (true, s)
      | s => (false, s)
    match splitFirst [':'] s with
    | some (name, ']' :: s) =>
      (asciiClass? (String.ofList name)).map fun set =>
        let set := foldSet f set
        (if negated then if f.unicode then some (.compl set) else none else some set, s)
    | _ => none
  | _ => none

/-- One character of a set or one escape in it. -/
def readSetAtom (f : Flags) : List Char → Option (Atom × List Char)
  | [] => none
  | '\\' :: rest => readEscape f rest
  | c :: rest => some (.literal c, rest)

/-- A character that may stand in a set: with ASCII classes, only one of ASCII. -/
def setChar? (f : Flags) (c : Char) : Option Char :=
  if f.unicode || c.toNat < 128 then some c else none

/-- One item of a set: a character, a range, or a class. -/
def readSetItem (f : Flags) (s : List Char) : Option (CharSet × List Char) := do
  let (first, s) ← readSetAtom f s
  let s := skip f s
  let range : Option (List Char) :=
    match s with
    | '-' :: after =>
      match skip f after with
      | ']' :: _ => none
      | '-' :: _ => none
      | after => some after
    | _ => none
  match range with
  | none =>
    match first with
    | .literal c => return (.char (← setChar? f c), s)
    | .set set => return (set, s)
    | .look _ => none
  | some after =>
    let (last, s) ← readSetAtom f after
    match first, last with
    | .literal a, .literal b =>
      if a ≤ b then return (.range (← setChar? f a) (← setChar? f b), s) else none
    | _, _ => none

/-- Reads a bracketed set behind its opening bracket. `outer` are the sets it is nested in, the
innermost first. -/
def readSet (f : Flags) : (fuel : Nat) → (outer : List PartialSet) → PartialSet → List Char →
    Option (CharSet × List Char)
  | 0, _, _, _ => none
  | fuel + 1, outer, p, s =>
    match skip f s with
    | [] => none
    | '[' :: rest =>
      match readAsciiClass f rest with
      | some (some set, rest) => readSet f fuel outer { p with items := set :: p.items } rest
      | some (none, _) => none
      | none =>
        let (inner, rest) := openSet f rest
        readSet f fuel (p :: outer) inner rest
    | ']' :: rest =>
      match p.finish? f, outer with
      | none, _ => none
      | some set, [] => some (set, rest)
      | some set, q :: outer => readSet f fuel outer { q with items := set :: q.items } rest
    | '&' :: '&' :: rest => operation fuel outer p .intersection rest
    | '-' :: '-' :: rest => operation fuel outer p .difference rest
    | '~' :: '~' :: rest => operation fuel outer p .symmetricDifference rest
    | s =>
      match readSetItem f s with
      | some (set, rest) => readSet f fuel outer { p with items := set :: p.items } rest
      | none => none
where
  /-- Goes on behind an operation. -/
  operation (fuel : Nat) (outer : List PartialSet) (p : PartialSet) (op : SetOp)
      (rest : List Char) : Option (CharSet × List Char) :=
    readSet f fuel outer { p with left := some (op, p.joined f), items := [] } rest

/-! ## Groups -/

/-- Whether a character may be in the name of a group. -/
def isNameChar (first : Bool) (c : Char) : Bool :=
  if first then c == '_' || isAlphabetic c
  else c == '_' || c == '.' || c == '[' || c == ']' || isAlphanumeric c

/-- The name of a group, up to a closing angle bracket. -/
def readGroupName (s : List Char) : Option (List Char × List Char) :=
  match splitFirst ['>'] s with
  | some (c :: cs, rest) =>
    if isNameChar true c && cs.all (isNameChar false) then some (c :: cs, rest) else none
  | _ => none

/-- What an opening parenthesis begins. -/
inductive Opening where
  | capture
  | named (name : List Char)
  | plain (flags : Flags)
  /-- Not a group, but flags for the rest of the group around. -/
  | switch (flags : Flags)
  deriving DecidableEq, Repr

def readOpening (f : Flags) (s : List Char) : Option (Opening × List Char) :=
  match skip f s with
  | '?' :: '=' :: _ => none
  | '?' :: '!' :: _ => none
  | '?' :: '<' :: '=' :: _ => none
  | '?' :: '<' :: '!' :: _ => none
  | '?' :: 'P' :: '<' :: s => (readGroupName s).map fun (name, s) => (.named name, s)
  | '?' :: '<' :: s => (readGroupName s).map fun (name, s) => (.named name, s)
  | '?' :: ')' :: _ => none
  | '?' :: s =>
    match readFlags f [] true s with
    | some (f, ':' :: s) => some (.plain f, s)
    | some (f, ')' :: s) => some (.switch f, s)
    | _ => none
  | s => some (.capture, s)

/-! ## Expressions -/

/-- A part of a sequence. -/
inductive Item where
  | expr (r : Regex)
  /-- Flags for what follows; a repetition cannot be applied to it. -/
  | switch
  deriving DecidableEq, Repr

/-- A sequence of items as one expression. The items come last first. -/
def sequence (items : List Item) : Regex :=
  catAll (items.reverse.filterMap fun
    | .expr r => some r
    | .switch => none)

/-- A group that is still open: what came before it in the group around it. -/
structure OpenGroup where
  /-- The number of the group, if it captures. -/
  index? : Option Nat
  /-- The flags of the group around it. -/
  flags : Flags
  alternatives : List Regex
  items : List Item

/-- What has been read of an expression: the flags in force, the open groups, the innermost first,
the finished alternatives of the innermost one and the items of its last alternative, both the last
first, and how many groups there are and which names they have. -/
structure State where
  flags : Flags := {}
  outer : List OpenGroup := []
  alternatives : List Regex := []
  items : List Item := []
  groups : Nat := 0
  names : List (List Char) := []

namespace State

def push (st : State) (r : Regex) : State :=
  { st with items := .expr r :: st.items }

/-- The group read so far as one expression. -/
def group (st : State) : Regex :=
  altAll (sequence st.items :: st.alternatives).reverse

/-- Replaces the last item by its repetition; there has to be one, and not just flags. -/
def repeatLast? (st : State) (min : Nat) (max? : Option Nat) (greedy : Bool) : Option State :=
  match st.items with
  | .expr r :: items =>
    let greedy := greedy != st.flags.swapGreed
    some { st with items := .expr (.repeated r min max? greedy) :: items }
  | _ => none

def openGroup (st : State) (index? : Option Nat) (flags : Flags) : State :=
  { st with
    flags
    outer := { index?, flags := st.flags, alternatives := st.alternatives, items := st.items } ::
      st.outer
    alternatives := []
    items := [] }

/-- Closes the innermost group, if there is one. -/
def closeGroup? (st : State) : Option State :=
  match st.outer with
  | [] => none
  | g :: outer =>
    let body := match g.index? with
      | some index => Regex.group index st.group
      | none => st.group
    some { st with
      flags := g.flags
      outer
      alternatives := g.alternatives
      items := .expr body :: g.items }

def bar (st : State) : State :=
  { st with alternatives := sequence st.items :: st.alternatives, items := [] }

end State

/-- The expression that a single character stands for. -/
def charExpr (f : Flags) (c : Char) : Regex :=
  if f.ignoreCase then
    if f.unicode then .chars (.caseless c) else .chars (.foldAscii (.char c))
  else .chars (.char c)

def atomExpr (f : Flags) : Atom → Regex
  | .literal c => charExpr f c
  | .set s => .chars s
  | .look l => .look l

/-- What `.` stands for. It accepts every character but those that end lines, and cannot be asked
for with ASCII classes. -/
def dotExpr? (f : Flags) : Option Regex :=
  if !f.unicode then none
  else if f.dotAll then some (.chars (.compl .none))
  else if f.crlf then some (.chars (.compl (.union (.char '\r') (.char '\n'))))
  else some (.chars (.compl (.char '\n')))

def step? (st : State) : List Char → Option (State × List Char)
  | [] => none
  | '(' :: rest =>
    match readOpening st.flags rest with
    | none => none
    | some (.capture, rest) =>
      let st := { st with groups := st.groups + 1 }
      some (st.openGroup (some st.groups) st.flags, rest)
    | some (.named name, rest) =>
      if st.names.contains name then none
      else
        let st := { st with groups := st.groups + 1, names := name :: st.names }
        some (st.openGroup (some st.groups) st.flags, rest)
    | some (.plain flags, rest) => some (st.openGroup none flags, rest)
    | some (.switch flags, rest) => some ({ st with flags, items := .switch :: st.items }, rest)
  | ')' :: rest => st.closeGroup?.map fun st => (st, rest)
  | '|' :: rest => some (st.bar, rest)
  | '[' :: rest =>
    let (p, s) := openSet st.flags rest
    (readSet st.flags (s.length + 1) [] p s).map fun (set, rest) => (st.push (.chars set), rest)
  | '?' :: rest => suffix 0 (some 1) rest
  | '*' :: rest => suffix 0 none rest
  | '+' :: rest => suffix 1 none rest
  | '\x7b' :: rest =>
    match readBounds st.flags rest with
    | none => none
    | some (min, max?, rest) => suffix min max? (skip st.flags rest)
  | '\\' :: rest =>
    (readEscape st.flags rest).map fun (atom, rest) => (st.push (atomExpr st.flags atom), rest)
  | '.' :: rest => (dotExpr? st.flags).map fun r => (st.push r, rest)
  | '^' :: rest =>
    let l : Look := if st.flags.multiLine then .lineStart st.flags.crlf else .textStart
    some (st.push (.look l), rest)
  | '$' :: rest =>
    let l : Look := if st.flags.multiLine then .lineEnd st.flags.crlf else .textEnd
    some (st.push (.look l), rest)
  | c :: rest => some (st.push (charExpr st.flags c), rest)
where
  /-- Applies a repetition, which is lazy with a question mark behind it. -/
  suffix (min : Nat) (max? : Option Nat) : List Char → Option (State × List Char)
    | '?' :: rest => (st.repeatLast? min max? false).map fun st => (st, rest)
    | rest => (st.repeatLast? min max? true).map fun st => (st, rest)

/-- Reads an expression to its end. Every piece takes a character, so the length of the text is fuel
enough. -/
def readFrom : (fuel : Nat) → State → List Char → Option State
  | 0, _, _ => none
  | fuel + 1, st, s =>
    match skip st.flags s with
    | [] => if st.outer.isEmpty then some st else none
    | s => (step? st s).bind fun (st, rest) => readFrom fuel st rest

/-- The number of states beyond which an expression is refused. -/
def maxWeight : Nat := 327680

/-- The expression that a text is the written form of, if it is one. -/
def read? (text : List Char) : Option Regex :=
  match readFrom (text.length + 1) {} text with
  | some st => if st.group.weight ≤ maxWeight then some st.group else none
  | none => none

end Parley.Regex
