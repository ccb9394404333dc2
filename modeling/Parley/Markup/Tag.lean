import Parley.Text.Case
import Parley.Text.Words

/-!
# Tags

Markup is text with tags in it. A tag is an opening angle bracket, an optional slash, a name,
attributes with quoted values, an optional slash and a closing angle bracket; anything else is text,
also a lone angle bracket.

Main results: `length_lt_of_readAttribute?`, `length_lt_of_readTag?` — what follows a tag or an
attribute is shorter than the whole, so that reading ends.
-/

namespace Parley.Markup

open Text

/-! ## Reading attributes -/

def isAttributeNameChar (c : Char) : Bool :=
  isWordChar c || c == ':' || c == '-'

/-- What follows the longest run of characters that pass a test, if the run is not empty. -/
def skipSome (p : Char → Bool) : List Char → Option (List Char)
  | [] => none
  | c :: rest => if p c then some (rest.dropWhile p) else none

/-- A value in quotes of one kind, and what follows it. -/
def readQuoted (quote : Char) (s : List Char) : Option (List Char × List Char) :=
  match s.dropWhile (· != quote) with
  | [] => none
  | _ :: rest => some (s.takeWhile (· != quote), rest)

/-- The value behind an equals sign, and what follows it. -/
def readValue? (s : List Char) : Option (List Char × List Char) :=
  match s.dropWhile isBlank with
  | '=' :: rest =>
    match rest.dropWhile isBlank with
    | '"' :: rest => readQuoted '"' rest
    | '\'' :: rest => readQuoted '\'' rest
    | _ => none
  | _ => none

/-- An attribute at the start of a text: its name, its value and what follows it. -/
def readNamedValue? (s : List Char) : Option (List Char × List Char × List Char) :=
  match skipSome isAttributeNameChar s with
  | none => none
  | some rest =>
    (readValue? rest).map fun (value, rest) => (s.takeWhile isAttributeNameChar, value, rest)

/-- What follows an attribute that has blanks in front of it. -/
def readAttribute? (s : List Char) : Option (List Char) :=
  match skipSome isBlank s with
  | none => none
  | some rest => (readNamedValue? rest).map fun (_, _, rest) => rest

/-! ## What is left is shorter -/

theorem length_dropWhile_le (p : Char → Bool) (s : List Char) :
    (s.dropWhile p).length ≤ s.length :=
  (List.dropWhile_suffix p).length_le

theorem length_lt_of_skipSome {p : Char → Bool} {s rest : List Char}
    (h : skipSome p s = some rest) : rest.length < s.length := by
  cases s with
  | nil => simp [skipSome] at h
  | cons c s =>
    by_cases hc : p c = true
    · simp only [skipSome, hc, if_true, Option.some.injEq] at h
      subst h
      have := length_dropWhile_le p s
      simp only [List.length_cons]
      omega
    · simp [skipSome, hc] at h

theorem length_lt_of_readQuoted {quote : Char} {s value rest : List Char}
    (h : readQuoted quote s = some (value, rest)) : rest.length < s.length := by
  unfold readQuoted at h
  split at h
  · simp at h
  · next hd =>
    simp only [Option.some.injEq, Prod.mk.injEq] at h
    have hle := length_dropWhile_le (· != quote) s
    rw [hd, List.length_cons] at hle
    rw [← h.2]
    omega

theorem length_lt_of_readValue? {s value rest : List Char}
    (h : readValue? s = some (value, rest)) : rest.length < s.length := by
  unfold readValue? at h
  split at h
  · next r hr =>
    have hs := length_dropWhile_le isBlank s
    rw [hr, List.length_cons] at hs
    have hr' := length_dropWhile_le isBlank r
    split at h
    · next q hq =>
      rw [hq, List.length_cons] at hr'
      have := length_lt_of_readQuoted h
      omega
    · next q hq =>
      rw [hq, List.length_cons] at hr'
      have := length_lt_of_readQuoted h
      omega
    · simp at h
  · simp at h

theorem length_lt_of_readNamedValue? {s name value rest : List Char}
    (h : readNamedValue? s = some (name, value, rest)) : rest.length < s.length := by
  unfold readNamedValue? at h
  split at h
  · simp at h
  · next r hr =>
    obtain ⟨⟨v, t⟩, hv, hpair⟩ := Option.map_eq_some_iff.1 h
    simp only [Prod.mk.injEq] at hpair
    have := length_lt_of_skipSome hr
    have := length_lt_of_readValue? hv
    rw [← hpair.2.2]
    omega

/-- What follows an attribute is shorter than the whole. -/
theorem length_lt_of_readAttribute? {s rest : List Char} (h : readAttribute? s = some rest) :
    rest.length < s.length := by
  unfold readAttribute? at h
  split at h
  · simp at h
  · next r hr =>
    obtain ⟨⟨n, v, t⟩, hv, hpair⟩ := Option.map_eq_some_iff.1 h
    have := length_lt_of_skipSome hr
    have := length_lt_of_readNamedValue? hv
    simp only at hpair
    rw [← hpair]
    omega

/-! ## Attributes in a text -/

/-- What follows the attributes at the start of a text. -/
def skipAttributes (s : List Char) : List Char :=
  match _h : readAttribute? s with
  | none => s
  | some rest => skipAttributes rest
termination_by s.length
decreasing_by exact length_lt_of_readAttribute? _h

theorem length_skipAttributes_le (s : List Char) : (skipAttributes s).length ≤ s.length := by
  fun_induction skipAttributes s with
  | case1 => exact Nat.le_refl _
  | case2 s rest h ih =>
    have := length_lt_of_readAttribute? h
    omega

/-- All attributes in a text, from left to right, each with its name in lower case. -/
def attributesIn : List Char → List (String × String)
  | [] => []
  | c :: rest =>
    match _h : readNamedValue? (c :: rest) with
    | some (name, value, after) =>
      (asciiLowercase (String.ofList name), String.ofList value) :: attributesIn after
    | none => attributesIn rest
termination_by s => s.length
decreasing_by
  · exact length_lt_of_readNamedValue? _h
  · simp

/-- The value of the first attribute in a text that has a name, whatever the case of the letters. -/
def valueIn? (wanted : String) : List Char → Option String
  | [] => none
  | c :: rest =>
    match _h : readNamedValue? (c :: rest) with
    | some (name, value, after) =>
      if asciiLowercase (String.ofList name) = asciiLowercase wanted then
        some (String.ofList value)
      else valueIn? wanted after
    | none => valueIn? wanted rest
termination_by s => s.length
decreasing_by
  · exact length_lt_of_readNamedValue? _h
  · simp

/-! ## Reading tags -/

/-- A tag. Its name is in lower case. -/
structure Tag where
  closing : Bool
  name : String
  /-- The part of the tag that its attributes stand in. -/
  attributePart : List Char
  selfClosing : Bool
  deriving DecidableEq, Repr

/-- The attributes of a tag, in order, with names in lower case. -/
def Tag.attributes (t : Tag) : List (String × String) :=
  attributesIn t.attributePart

/-- The value of the first attribute of a name, whatever the case of the letters. -/
def Tag.attribute? (t : Tag) (name : String) : Option String :=
  valueIn? name t.attributePart

def isNameStart (c : Char) : Bool :=
  c.isAlpha || c == '_'

def isNameChar (c : Char) : Bool :=
  isWordChar c || c == '.' || c == '-'

/-- A text without a slash at its start, and whether there was one. -/
def takeSlash : List Char → Bool × List Char
  | '/' :: rest => (true, rest)
  | s => (false, s)

/-- A tag whose opening bracket has been read, and what follows the tag. -/
def readTag? (s : List Char) : Option (Tag × List Char) :=
  match takeSlash s with
  | (closing, c :: rest) =>
    if isNameStart c then
      let name := c :: rest.takeWhile isNameChar
      let inside := rest.dropWhile isNameChar
      let behind := skipAttributes inside
      match takeSlash (behind.dropWhile isBlank) with
      | (selfClosing, '>' :: after) =>
        some ({ closing
                name := asciiLowercase (String.ofList name)
                attributePart := inside.take (inside.length - behind.length)
                selfClosing }, after)
      | _ => none
    else none
  | (_, []) => none

theorem length_takeSlash_le (s : List Char) : (takeSlash s).2.length ≤ s.length := by
  unfold takeSlash
  split <;> simp

/-- What follows a tag is shorter than the whole. -/
theorem length_lt_of_readTag? {s rest : List Char} {t : Tag} (h : readTag? s = some (t, rest)) :
    rest.length < s.length := by
  unfold readTag? at h
  split at h
  · next closing c r hs =>
    have hfirst := length_takeSlash_le s
    rw [hs] at hfirst
    split at h
    · dsimp only at h
      split at h
      · next after hafter =>
        simp only [Option.some.injEq, Prod.mk.injEq] at h
        have h1 := length_takeSlash_le
          ((skipAttributes (r.dropWhile isNameChar)).dropWhile isBlank)
        rw [hafter] at h1
        have h2 := length_dropWhile_le isBlank (skipAttributes (r.dropWhile isNameChar))
        have h3 := length_skipAttributes_le (r.dropWhile isNameChar)
        have h4 := length_dropWhile_le isNameChar r
        simp only [List.length_cons] at hfirst h1
        rw [← h.2]
        omega
      · simp at h
    · simp at h
  · simp at h

/-! ## Markup as a sequence -/

/-- Text cut at its tags. -/
structure Pieces where
  /-- The tags, each with the text in front of it. -/
  tagged : List (List Char × Tag)
  /-- The text behind the last tag. -/
  last : List Char
  deriving DecidableEq, Repr

def Pieces.consChar (c : Char) (p : Pieces) : Pieces :=
  match p.tagged with
  | [] => { p with last := c :: p.last }
  | (text, tag) :: more => { p with tagged := (c :: text, tag) :: more }

def Pieces.consTag (t : Tag) (p : Pieces) : Pieces :=
  { p with tagged := ([], t) :: p.tagged }

/-- Cuts markup at its tags, from left to right. -/
def cutAtTags : List Char → Pieces
  | [] => { tagged := [], last := [] }
  | c :: rest =>
    if c == '<' then
      match _h : readTag? rest with
      | some (tag, after) => (cutAtTags after).consTag tag
      | none => (cutAtTags rest).consChar c
    else (cutAtTags rest).consChar c
termination_by s => s.length
decreasing_by
  · have := length_lt_of_readTag? _h
    simp only [List.length_cons]
    omega
  · simp
  · simp

end Parley.Markup
