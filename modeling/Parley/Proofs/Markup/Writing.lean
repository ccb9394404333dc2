import Parley.Proofs.Markup.Nesting
import Parley.Proofs.Trimming

/-!
# Writing templates

Content has a written form, which is read back as it was. Content as it is read has no empty texts
and no two texts side by side; texts must not have opening brackets in them and names no quotes, as
there is nothing to escape them with.

Main results:

* `readNumber?_toString` — numbers are read back;
* `exists_writtenAs` — written content is well nested, whatever is behind it;
* `parseContent_contentMarkup` — it is read as the content that was written.
-/

namespace Parley

open Text Markup

/-! ## Numbers -/

namespace Text

/-- A number is read back from its digits. -/
theorem decimalValue_toDigits (n : Nat) : decimalValue (Nat.toDigits 10 n) = n := by
  have hdigits : Nat.ofDigitChars 10 (Nat.toDigits 10 n) 0 = n := Nat.ofDigitChars_ten_toDigits
  simp only [Nat.ofDigitChars_eq_foldl, Nat.mul_comm 10] at hdigits
  exact hdigits

/-- No digit is a blank. -/
theorem not_isBlank_of_isDigit {c : Char} (h : c.isDigit = true) : isBlank c = false := by
  refine not_isBlank_of_isAttributeNameChar ?_
  simp [isAttributeNameChar, isWordChar, isDecimal_of_isDigit h]

/-- Numbers are read back. -/
theorem readNumber?_toString {n : Nat} (h : n < UInt64.size) :
    readNumber? (trim (toString n)) = some n := by
  have hdigit : ∀ c ∈ Nat.toDigits 10 n, c.isDigit = true :=
    fun c hc => Nat.isDigit_of_mem_toDigits (by decide) (by decide) hc
  have hstrip : strip (Nat.toDigits 10 n) = Nat.toDigits 10 n :=
    strip_eq_self fun c hc => not_isBlank_of_isDigit (hdigit c hc)
  have hplus : dropPlus (Nat.toDigits 10 n) = Nat.toDigits 10 n := by
    unfold dropPlus
    split
    · next rest heq =>
      have hplus : '+'.isDigit = true := hdigit '+' (heq ▸ List.mem_cons_self)
      exact absurd hplus (by decide)
    · rfl
  have hall : (Nat.toDigits 10 n).all Char.isDigit = true := List.all_eq_true.2 hdigit
  simp [readNumber?, trim, hstrip, hplus, hall, decimalValue_toDigits, h]

end Text

/-! ## Written tags -/

namespace Markup

/-- A name that an element can have as it is. -/
def IsElementName (name : String) : Prop :=
  ∃ c letters, name.toList = c :: letters ∧ isNameStart c = true ∧
    (∀ d ∈ letters, isNameChar d = true) ∧ asciiLowercase name = name

/-- Whether the letters in a tag name an element; they can be in any case. -/
structure Spells (letters name : String) : Prop where
  isTagName : ∃ c rest, letters.toList = c :: rest ∧ isNameStart c = true ∧
    ∀ d ∈ rest, isNameChar d = true
  lower : asciiLowercase letters = name

/-- A name in lower case spells itself. -/
theorem IsElementName.spells {name : String} (h : IsElementName name) : Spells name name := by
  obtain ⟨c, rest, heq, hstart, hrest, hlower⟩ := h
  exact ⟨⟨c, rest, heq, hstart, hrest⟩, hlower⟩

/-- A name that an attribute can have as it is. -/
structure IsAttributeName (name : String) : Prop where
  ne_nil : name.toList ≠ []
  chars : ∀ c ∈ name.toList, isAttributeNameChar c = true
  lower : asciiLowercase name = name

/-- An attribute that can be written as it is. -/
structure IsAttribute (a : String × String) : Prop where
  name : IsAttributeName a.1
  value : '"' ∉ a.2.toList

/-- An attribute in double quotes, with a space in front of it. -/
def attributeMarkup (a : String × String) : List Char :=
  ' ' :: (a.1.toList ++ '=' :: '"' :: (a.2.toList ++ ['"']))

def openingMarkup (name : String) (attributes : List (String × String)) : List Char :=
  '<' :: (name.toList ++ attributes.flatMap attributeMarkup ++ ['>'])

def singleMarkup (name : String) (attributes : List (String × String)) : List Char :=
  '<' :: (name.toList ++ attributes.flatMap attributeMarkup ++ ['/', '>'])

def closingMarkup (name : String) : List Char :=
  '<' :: '/' :: (name.toList ++ ['>'])

/-- The tag that is written with a name and attributes. -/
def writtenTag (closing selfClosing : Bool) (name : String) (attributes : List (String × String)) :
    Tag :=
  { closing, name, attributePart := attributes.flatMap attributeMarkup, selfClosing }

/-- Attributes that are written one after the other are the attributes of the grammar. -/
theorem attributePart_flatMap {attributes : List (String × String)}
    (h : ∀ a ∈ attributes, IsAttribute a) :
    AttributePart (attributes.flatMap attributeMarkup) attributes := by
  induction attributes with
  | nil => exact .nil
  | cons a attributes ih =>
    have ha := h a List.mem_cons_self
    have hspace : ∀ c ∈ [' '], isBlank c = true := List.forall_mem_singleton.2 (by decide)
    have hnone : ∀ c ∈ ([] : List Char), isBlank c = true := fun c hc => nomatch hc
    have hrest := ih fun b hb => h b (List.mem_cons_of_mem a hb)
    have hpart := AttributePart.cons (List.cons_ne_nil _ _) hspace
      (.mk ha.name.ne_nil ha.name.chars hnone hnone (.double ha.value)) hrest
    rw [String.ofList_toList, String.ofList_toList, ha.name.lower] at hpart
    simpa [attributeMarkup] using hpart

/-- The attributes of a written tag are found again. -/
theorem attributes_writtenTag {attributes : List (String × String)}
    (h : ∀ a ∈ attributes, IsAttribute a) (closing selfClosing : Bool) (name : String) :
    (writtenTag closing selfClosing name attributes).attributes = attributes :=
  attributesIn_attributePart (attributePart_flatMap h)

/-- The text of a written tag. -/
theorem tagText_writtenTag {letters name : String} (hname : Spells letters name)
    {attributes : List (String × String)} (h : ∀ a ∈ attributes, IsAttribute a)
    (closing selfClosing : Bool) :
    TagText
      ('<' :: slash closing ++ letters.toList ++ attributes.flatMap attributeMarkup ++
        slash selfClosing ++ ['>'])
      (writtenTag closing selfClosing name attributes) := by
  obtain ⟨⟨c, rest, heq, hstart, hrest⟩, hlower⟩ := hname
  have hnone : ∀ c ∈ ([] : List Char), isBlank c = true := fun c hc => nomatch hc
  have htag := @TagText.mk closing selfClosing c rest _ [] _ hstart hrest
    (attributePart_flatMap h) hnone
  rw [← heq, String.ofList_toList, hlower, List.append_nil] at htag
  exact htag

/-- An opening tag as it is written. -/
theorem tagText_openingMarkup {letters name : String} (hname : Spells letters name)
    {attributes : List (String × String)} (h : ∀ a ∈ attributes, IsAttribute a) :
    TagText (openingMarkup letters attributes) (writtenTag false false name attributes) := by
  simpa [openingMarkup, slash] using tagText_writtenTag hname h false false

/-- A tag that closes itself as it is written. -/
theorem tagText_singleMarkup {letters name : String} (hname : Spells letters name)
    {attributes : List (String × String)} (h : ∀ a ∈ attributes, IsAttribute a) :
    TagText (singleMarkup letters attributes) (writtenTag false true name attributes) := by
  simpa [singleMarkup, slash] using tagText_writtenTag hname h false true

/-- A closing tag as it is written. -/
theorem tagText_closingMarkup {letters name : String} (hname : Spells letters name) :
    TagText (closingMarkup letters) (writtenTag true false name []) := by
  have hnone : ∀ a ∈ ([] : List (String × String)), IsAttribute a := fun a ha => nomatch ha
  simpa [closingMarkup, slash] using tagText_writtenTag hname hnone true false

end Markup

/-! ## Written content -/

namespace Template

/-- The attribute that says where a value is kept. -/
def scopeName : Scope → String
  | .predicate => "name"
  | .variable => "var"

mutual

/-- The written form of a part. -/
def partMarkup : Part → List Char
  | .text s => s.toList
  | .star segment n => singleMarkup (captureName segment) [("index", toString n)]
  | .srai content => openingMarkup "srai" [] ++ (contentMarkup content ++ closingMarkup "srai")
  | .get name scope => singleMarkup "get" [(scopeName scope, name)]
  | .set name scope content =>
    openingMarkup "set" [(scopeName scope, name)] ++
      (contentMarkup content ++ closingMarkup "set")
  | .think content => openingMarkup "think" [] ++ (contentMarkup content ++ closingMarkup "think")
  | .extension name attributes content =>
    openingMarkup name attributes ++ (contentMarkup content ++ closingMarkup name)

/-- The written form of content. -/
def contentMarkup : Content → List Char
  | [] => []
  | part :: content => partMarkup part ++ contentMarkup content

end

/-- Whether content begins with a text. -/
def startsWithText : Content → Bool
  | .text _ :: _ => true
  | _ => false

/-- Content of the kinds of parts that are built in, as it can be written: captures are counted from
one and below 2 ^ 64, names have no double quotes, and texts are not empty, have no opening brackets
and are not next to each other. -/
inductive Writable : Content → Prop where
  | nil : Writable []
  | text {s : String} {content : Content} (hne : s.toList ≠ []) (hfree : '<' ∉ s.toList)
    (hnext : startsWithText content = false) (h : Writable content) :
    Writable (.text s :: content)
  | star {segment : Segment} {n : Nat} {content : Content} (hpos : 1 ≤ n) (hlt : n < UInt64.size)
    (h : Writable content) : Writable (.star segment n :: content)
  | srai {inside content : Content} (hinside : Writable inside) (h : Writable content) :
    Writable (.srai inside :: content)
  | get {name : String} {scope : Scope} {content : Content} (hname : '"' ∉ name.toList)
    (h : Writable content) : Writable (.get name scope :: content)
  | set {name : String} {scope : Scope} {inside content : Content} (hname : '"' ∉ name.toList)
    (hinside : Writable inside) (h : Writable content) :
    Writable (.set name scope inside :: content)
  | think {inside content : Content} (hinside : Writable inside) (h : Writable content) :
    Writable (.think inside :: content)

/-! ## Reading it back -/

variable {registry : Registry}

/-- The built-in elements have names that can be written. -/
theorem isElementName_of_mem {name : String} (h : name ∈ builtInNames) : IsElementName name := by
  simp only [builtInNames, List.mem_cons, List.not_mem_nil, or_false] at h
  rcases h with rfl | rfl | rfl | rfl | rfl | rfl | rfl | rfl <;>
    exact ⟨_, _, rfl, by decide, List.all_eq_true.1 (by decide +kernel), by decide +kernel⟩

/-- The elements for captures are built in. -/
theorem captureName_mem_builtInNames (segment : Segment) : captureName segment ∈ builtInNames := by
  cases segment <;> decide

/-- The scope of a variable is written as an attribute. -/
theorem isAttributeName_scopeName (scope : Scope) : IsAttributeName (scopeName scope) := by
  cases scope <;>
    exact ⟨by decide, List.all_eq_true.1 (by decide +kernel), by decide +kernel⟩

/-- A name without quotation marks can be its value. -/
theorem isAttribute_scopeName {name : String} (h : '"' ∉ name.toList) (scope : Scope) :
    IsAttribute (scopeName scope, name) :=
  ⟨isAttributeName_scopeName scope, h⟩

/-- The name `index` is that of an attribute. -/
theorem isAttributeName_index : IsAttributeName "index" :=
  ⟨by decide, List.all_eq_true.1 (by decide +kernel), by decide +kernel⟩

/-- Its digits are no quotation marks. -/
theorem isAttribute_index (n : Nat) : IsAttribute ("index", toString n) := by
  refine ⟨isAttributeName_index, fun hquote => ?_⟩
  rw [Nat.toString_eq_ofList_toDigits, String.toList_ofList] at hquote
  exact absurd (Nat.isDigit_of_mem_toDigits (by decide) (by decide) hquote) (by decide)

/-- The only attribute decides about the variable. -/
theorem hasTarget_scopeName (name : String) (scope : Scope) :
    HasTarget [(scopeName scope, name)] name scope := by
  cases scope with
  | predicate => exact .predicate rfl
  | «variable» => exact .variable rfl rfl

/-- A number that fits is read back. -/
theorem hasIndex_toString {n : Nat} (hpos : 1 ≤ n) (hlt : n < UInt64.size) :
    HasIndex [("index", toString n)] n :=
  Or.inr ⟨_, rfl, readNumber?_toString hlt, hpos⟩

/-- Whether markup begins with a text. -/
def beginsWithText : List Lexeme → Bool
  | .text _ :: _ => true
  | _ => false

/-- A text in front of markup that does not begin with one. -/
theorem lexed_text {text behind : List Char} {ls : List Lexeme} (hne : text ≠ [])
    (hfree : '<' ∉ text) (h : Lexed behind ls) (hls : beginsWithText ls = false) :
    Lexed (text ++ behind) (.text text :: ls) := by
  have hlexemes : textLexemes text = [.text text] := by simp [textLexemes, hne]
  -- what stands before the first tag is nothing
  have hnil : ∀ {s : List Char} {m : List Lexeme}, beginsWithText (textLexemes s ++ m) = false →
      s = [] := by
    intro s m hs
    cases s with
    | nil => rfl
    | cons c s => cases hs
  cases h with
  | @last s _ =>
    obtain rfl := hnil (m := []) (by simpa using hls)
    have hlast := Lexed.last (tagFree_of_not_mem hfree [])
    rw [hlexemes] at hlast
    simpa [textLexemes] using hlast
  | @tag s u behind t m hfree' htag hbehind =>
    obtain rfl := hnil hls
    have hlexed := Lexed.tag (tagFree_of_not_mem hfree (u ++ behind)) htag hbehind
    rw [hlexemes] at hlexed
    simpa [textLexemes] using hlexed

/-- The text of a tag in front of a text is lexed as that tag. -/
theorem lexed_tag {u behind : List Char} {t : Tag} {ls : List Lexeme} (htag : TagText u t)
    (h : Lexed behind ls) : Lexed (u ++ behind) (.tag t :: ls) :=
  Lexed.tag (tagFree_nil _) htag h

/-- A tag with one attribute. -/
theorem attributes_written {a : String × String} (h : IsAttribute a) (closing selfClosing : Bool)
    (name : String) : (writtenTag closing selfClosing name [a]).attributes = [a] :=
  attributes_writtenTag (fun _ hb => List.mem_singleton.1 hb ▸ h) closing selfClosing name

/-- What has been written of content, in front of markup that does not begin with a text. -/
structure WrittenAs (registry : Registry) (content : Content) (behind : List Char)
    (ls written : List Lexeme) : Prop where
  nests : Nests registry written content
  lexed : Lexed (contentMarkup content ++ behind) (written ++ ls)
  begins : beginsWithText (written ++ ls) = startsWithText content

/-- An element that is written as a single tag. -/
theorem WrittenAs.single {content : Content} {behind : List Char} {ls written : List Lexeme}
    (h : WrittenAs registry content behind ls written) {part : Part} {name : String}
    {a : String × String} (hname : name ∈ builtInNames) (ha : IsAttribute a)
    (hmarkup : partMarkup part = singleMarkup name [a])
    (hstands : Stands registry [a] [] name part)
    (hpart : startsWithText (part :: content) = false) :
    WrittenAs registry (part :: content) behind ls
      (.tag (writtenTag false true name [a]) :: written) where
  nests := by
    refine .single rfl rfl ?_ h.nests
    rw [attributes_written ha]
    exact hstands
  lexed := by
    rw [contentMarkup, hmarkup, List.append_assoc]
    exact lexed_tag (tagText_singleMarkup (isElementName_of_mem hname).spells
      fun _ hb => List.mem_singleton.1 hb ▸ ha) h.lexed
  begins := hpart.symm

/-- An element that is written as two tags with its content between them. -/
theorem WrittenAs.element {inside content : Content} {behind : List Char}
    {ls writtenInside written : List Lexeme} {name : String}
    (h : WrittenAs registry content behind ls written) (hname : name ∈ builtInNames)
    (hinside : WrittenAs registry inside
      (closingMarkup name ++ (contentMarkup content ++ behind))
      (.tag (writtenTag true false name []) :: (written ++ ls)) writtenInside)
    {part : Part} {attributes : List (String × String)}
    (ha : ∀ a ∈ attributes, IsAttribute a)
    (hmarkup : partMarkup part =
      openingMarkup name attributes ++ (contentMarkup inside ++ closingMarkup name))
    (hstands : Stands registry attributes inside name part)
    (hpart : startsWithText (part :: content) = false) :
    WrittenAs registry (part :: content) behind ls
      (.tag (writtenTag false false name attributes) ::
        (writtenInside ++ .tag (writtenTag true false name []) :: written)) where
  nests := by
    refine .element rfl rfl hinside.nests rfl rfl ?_ h.nests
    rw [attributes_writtenTag ha]
    exact hstands
  lexed := by
    -- the opening tag is lexed in front of what is inside, with the closing tag and the rest behind
    -- it
    have hlexed :=
      lexed_tag (tagText_openingMarkup (isElementName_of_mem hname).spells ha) hinside.lexed
    rw [contentMarkup, hmarkup]
    simpa using hlexed
  begins := hpart.symm

/-- Written content is well nested, whatever is behind it. -/
theorem exists_writtenAs {content : Content} (h : Writable content) {behind : List Char}
    {ls : List Lexeme} (hbehind : Lexed behind ls) (hls : beginsWithText ls = false) :
    ∃ written, WrittenAs registry content behind ls written := by
  -- the content of an element is in front of its closing tag, which is no text
  have hclosed : ∀ name ∈ builtInNames, ∀ {behind : List Char} {ls : List Lexeme},
      Lexed behind ls → Lexed (closingMarkup name ++ behind)
        (.tag (writtenTag true false name []) :: ls) :=
    fun _ hname _ _ hbehind =>
      lexed_tag (tagText_closingMarkup (isElementName_of_mem hname).spells) hbehind
  have hnone : ∀ a ∈ ([] : List (String × String)), IsAttribute a := fun a ha => nomatch ha
  induction h generalizing behind ls with
  | nil => exact ⟨[], .nil, hbehind, hls⟩
  | @text s content hne hfree hnext _ ih =>
    obtain ⟨written, hnests, hlexed, hbegins⟩ := ih hbehind hls
    -- no other text follows, so that the two are not one
    have htext := lexed_text hne hfree hlexed (hbegins.trans hnext)
    refine ⟨.text s.toList :: written, ?_, ?_, rfl⟩
    · have hcons := Nests.text (s := s.toList) hnests
      rwa [String.ofList_toList] at hcons
    · rw [contentMarkup, partMarkup, List.append_assoc]
      exact htext
  | star hpos hlt _ ih =>
    obtain ⟨written, hwritten⟩ := ih hbehind hls
    exact ⟨_, hwritten.single (captureName_mem_builtInNames _) (isAttribute_index _) rfl
      (.star (hasIndex_toString hpos hlt)) rfl⟩
  | get hname _ ih =>
    obtain ⟨written, hwritten⟩ := ih hbehind hls
    exact ⟨_, hwritten.single (by decide) (isAttribute_scopeName hname _) rfl
      (.get (hasTarget_scopeName _ _)) rfl⟩
  | srai _ _ ihin ih =>
    obtain ⟨written, hwritten⟩ := ih hbehind hls
    obtain ⟨inside, hinside⟩ := ihin (hclosed "srai" (by decide) hwritten.lexed) rfl
    exact ⟨_, hwritten.element (by decide) hinside hnone rfl .srai rfl⟩
  | think _ _ ihin ih =>
    obtain ⟨written, hwritten⟩ := ih hbehind hls
    obtain ⟨inside, hinside⟩ := ihin (hclosed "think" (by decide) hwritten.lexed) rfl
    exact ⟨_, hwritten.element (by decide) hinside hnone rfl .think rfl⟩
  | set hname _ _ ihin ih =>
    obtain ⟨written, hwritten⟩ := ih hbehind hls
    obtain ⟨inside, hinside⟩ := ihin (hclosed "set" (by decide) hwritten.lexed) rfl
    refine ⟨_, hwritten.element (by decide) hinside ?_ rfl (.set (hasTarget_scopeName _ _))
      rfl⟩
    exact fun a ha => List.mem_singleton.1 ha ▸ isAttribute_scopeName hname _

/-- **Written content is read as it was written**, whichever elements the host has added. -/
theorem parseContent_contentMarkup {content : Content} (h : Writable content)
    (registry : Registry) :
    parseContent registry (String.ofList (contentMarkup content)) = .ok content := by
  have hnil : Lexed [] [] := .last (tagFree_nil [])
  obtain ⟨written, hnests, hlexed, -⟩ := @exists_writtenAs registry content h [] [] hnil rfl
  rw [List.append_nil, List.append_nil] at hlexed
  rw [parseContent_eq_ok_iff, String.toList_ofList]
  exact ⟨written, hlexed, hnests⟩

/-- A greeting that notes who has been greeted. -/
def greetingContent : Content :=
  [.text "Hi ", .star .message 18446744073709551615, .text ", a > b",
    .think [.set "it's <you>" .variable [.star .that 1, .srai []]], .get "topic" .predicate]

/-- A template with elements in elements, and with quotation marks and signs that are escaped or
not. -/
theorem parseContent_contentMarkup_greeting :
    Writable greetingContent ∧
      contentMarkup greetingContent =
        ("Hi <star index=\"18446744073709551615\"/>, a > b<think><set var=\"it's <you>\">" ++
          "<thatstar index=\"1\"/><srai></srai></set></think><get name=\"topic\"/>").toList ∧
      parseContent [] (String.ofList (contentMarkup greetingContent)) = .ok greetingContent := by
  have hwritable : Writable greetingContent := by
    refine .text (by decide) (by decide) rfl ?_
    refine .star (by decide) (by decide) ?_
    refine .text (by decide) (by decide) rfl ?_
    refine .think (.set (by decide) ?_ .nil) (.get (by decide) .nil)
    exact .star (by decide) (by decide) (.srai .nil .nil)
  exact ⟨hwritable, by decide +kernel, parseContent_contentMarkup hwritable []⟩

end Template

end Parley
