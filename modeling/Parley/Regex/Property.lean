import Parley.Regex.CharSet

/-!
# Names of properties

An expression may ask for the characters of a Unicode property by name. Names are compared without
regard to case, blanks, hyphens and underscores, and a leading `is` is ignored. Known are the
general categories, the groups of them, and the properties of two values that have to do with
letters, case and blanks; every other name is refused.
-/

namespace Parley.Regex

open Text

/-- The form in which names of properties are compared. -/
def looseName (name : List Char) : String :=
  let body :=
    match name with
    | a :: b :: rest => if a.toLower == 'i' && b.toLower == 's' then rest else name
    | _ => name
  let kept := body.filter fun c => c.toNat < 128 && c != ' ' && c != '_' && c != '-'
  String.ofList (kept.map Char.toLower)

/-- The set of the characters of several categories. -/
def ofCategories (ks : List GeneralCategory) : CharSet :=
  CharSet.unionAll (ks.map fun k => .property (.category k))

def letterCategories : List GeneralCategory :=
  [.uppercaseLetter, .lowercaseLetter, .titlecaseLetter, .modifierLetter, .otherLetter]

def punctuationCategories : List GeneralCategory :=
  [.connectorPunctuation, .dashPunctuation, .openPunctuation, .closePunctuation,
   .initialPunctuation, .finalPunctuation, .otherPunctuation]

/-- The set that a general category, or a group of them, stands for. -/
def categorySet? (name : String) : Option CharSet :=
  match name with
  | "any" => some (.compl .none)
  | "assigned" => some (.property .assigned)
  | "ascii" => some (.range '\x00' '\x7f')
  | "l" | "letter" => some (ofCategories letterCategories)
  | "lc" | "casedletter" =>
    some (ofCategories [.uppercaseLetter, .lowercaseLetter, .titlecaseLetter])
  | "m" | "mark" | "combiningmark" =>
    some (ofCategories [.nonspacingMark, .spacingMark, .enclosingMark])
  | "n" | "number" => some (ofCategories [.decimalNumber, .letterNumber, .otherNumber])
  | "p" | "punctuation" | "punct" => some (ofCategories punctuationCategories)
  | "s" | "symbol" =>
    some (ofCategories [.mathSymbol, .currencySymbol, .modifierSymbol, .otherSymbol])
  | "z" | "separator" => some (ofCategories [.spaceSeparator, .lineSeparator, .paragraphSeparator])
  | "c" | "other" =>
    some (.union (ofCategories [.control, .format, .privateUse]) (.compl (.property .assigned)))
  | "cn" | "unassigned" => some (.compl (.property .assigned))
  | "lu" | "uppercaseletter" => some (ofCategories [.uppercaseLetter])
  | "ll" | "lowercaseletter" => some (ofCategories [.lowercaseLetter])
  | "lt" | "titlecaseletter" => some (ofCategories [.titlecaseLetter])
  | "lm" | "modifierletter" => some (ofCategories [.modifierLetter])
  | "lo" | "otherletter" => some (ofCategories [.otherLetter])
  | "mn" | "nonspacingmark" => some (ofCategories [.nonspacingMark])
  | "mc" | "spacingmark" => some (ofCategories [.spacingMark])
  | "me" | "enclosingmark" => some (ofCategories [.enclosingMark])
  | "nd" | "decimalnumber" | "digit" => some (ofCategories [.decimalNumber])
  | "nl" | "letternumber" => some (ofCategories [.letterNumber])
  | "no" | "othernumber" => some (ofCategories [.otherNumber])
  | "pc" | "connectorpunctuation" => some (ofCategories [.connectorPunctuation])
  | "pd" | "dashpunctuation" => some (ofCategories [.dashPunctuation])
  | "ps" | "openpunctuation" => some (ofCategories [.openPunctuation])
  | "pe" | "closepunctuation" => some (ofCategories [.closePunctuation])
  | "pi" | "initialpunctuation" => some (ofCategories [.initialPunctuation])
  | "pf" | "finalpunctuation" => some (ofCategories [.finalPunctuation])
  | "po" | "otherpunctuation" => some (ofCategories [.otherPunctuation])
  | "sm" | "mathsymbol" => some (ofCategories [.mathSymbol])
  | "sc" | "currencysymbol" => some (ofCategories [.currencySymbol])
  | "sk" | "modifiersymbol" => some (ofCategories [.modifierSymbol])
  | "so" | "othersymbol" => some (ofCategories [.otherSymbol])
  | "zs" | "spaceseparator" => some (ofCategories [.spaceSeparator])
  | "zl" | "lineseparator" => some (ofCategories [.lineSeparator])
  | "zp" | "paragraphseparator" => some (ofCategories [.paragraphSeparator])
  | "cc" | "control" | "cntrl" => some (ofCategories [.control])
  | "cf" | "format" => some (ofCategories [.format])
  | "co" | "privateuse" => some (ofCategories [.privateUse])
  | _ => none

/-- The set that a property of two values stands for. -/
def binarySet? (name : String) : Option CharSet :=
  match name with
  | "alpha" | "alphabetic" => some (.property .alphabetic)
  | "upper" | "uppercase" => some (.property .uppercase)
  | "lower" | "lowercase" => some (.property .lowercase)
  | "space" | "wspace" | "whitespace" => some (.property .blank)
  | "cased" => some (.property .cased)
  | "ci" | "caseignorable" => some (.property .caseIgnorable)
  | "joinc" | "joincontrol" => some (.property .joinControl)
  | _ => none

/-- The text before and after the first occurrence of a separator. -/
def splitFirst (separator : List Char) : List Char → Option (List Char × List Char)
  | [] => none
  | c :: rest =>
    if separator.isPrefixOf (c :: rest) then some ([], (c :: rest).drop separator.length)
    else (splitFirst separator rest).map fun (left, right) => (c :: left, right)

/-- The set that a name between braces stands for: a category, a property of two values, or a
property and its value with `=`, `:` or `!=` between them. -/
def namedSet? (name : List Char) : Option CharSet :=
  let valued (property value : List Char) : Option CharSet :=
    match looseName property with
    | "gc" | "generalcategory" => categorySet? (looseName value)
    | _ => none
  match splitFirst ['!', '='] name with
  | some (property, value) => (valued property value).map .compl
  | none =>
    match splitFirst [':'] name with
    | some (property, value) => valued property value
    | none =>
      match splitFirst ['='] name with
      | some (property, value) => valued property value
      | none =>
        let loose := looseName name
        match binarySet? loose with
        | some set => some set
        | none => categorySet? loose

/-- The ranges of ASCII characters that a class such as `[:alpha:]` stands for. -/
def asciiClass? (name : String) : Option CharSet :=
  let ranges (rs : List (Char × Char)) : CharSet :=
    CharSet.unionAll (rs.map fun r => .range r.1 r.2)
  match name with
  | "alnum" => some (ranges [('0', '9'), ('A', 'Z'), ('a', 'z')])
  | "alpha" => some (ranges [('A', 'Z'), ('a', 'z')])
  | "ascii" => some (ranges [('\x00', '\x7f')])
  | "blank" => some (ranges [('\t', '\t'), (' ', ' ')])
  | "cntrl" => some (ranges [('\x00', '\x1f'), ('\x7f', '\x7f')])
  | "digit" => some (ranges [('0', '9')])
  | "graph" => some (ranges [('!', '~')])
  | "lower" => some (ranges [('a', 'z')])
  | "print" => some (ranges [(' ', '~')])
  | "punct" => some (ranges [('!', '/'), (':', '@'), ('[', '\x60'), ('\x7b', '~')])
  | "space" => some (ranges [('\t', '\r'), (' ', ' ')])
  | "upper" => some (ranges [('A', 'Z')])
  | "word" => some (ranges [('0', '9'), ('A', 'Z'), ('_', '_'), ('a', 'z')])
  | "xdigit" => some (ranges [('0', '9'), ('A', 'F'), ('a', 'f')])
  | _ => none

end Parley.Regex
