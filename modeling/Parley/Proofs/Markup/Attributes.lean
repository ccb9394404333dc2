import Parley.Proofs.Markup.Lexemes

/-!
# Attributes as they are written

A tag is read in two steps. What delimits its attributes goes through them without a look at their
names and values. What scans them begins anew in the part that was delimited, and it finds
attributes anywhere in a text, also in the middle of a value. The two are in step all the same: a
scan that begins at the name of an attribute goes on behind the closing quote of its value, whatever
the value has in it.

Main results:

* `WrittenAttribute.exists_of_attributePart` — the part of a tag is a sequence of attributes;
* `WrittenAttribute.valueIn?_flatMap_text` — looking for a name goes by the first attribute that has
  it, whatever the case of the letters;
* `attributes_of_mem_tagged` — both for the tags of any markup.
-/

namespace Parley.Markup

open Text

/-! ## Attributes in writing -/

/-- An attribute as it is written in a tag, with the blanks in front of it and around its equals
sign and with the quotes that were chosen. -/
structure WrittenAttribute where
  gap : List Char
  name : List Char
  before : List Char
  after : List Char
  quote : Char
  value : List Char
  gap_ne_nil : gap ≠ []
  blank_gap : ∀ c ∈ gap, isBlank c = true
  name_ne_nil : name ≠ []
  name_chars : ∀ c ∈ name, isAttributeNameChar c = true
  blank_before : ∀ c ∈ before, isBlank c = true
  blank_after : ∀ c ∈ after, isBlank c = true
  quote_eq : quote = '"' ∨ quote = '\''
  quote_not_mem : quote ∉ value

namespace WrittenAttribute

/-- The attribute without the blanks in front of it. -/
def assignment (a : WrittenAttribute) : List Char :=
  a.name ++ a.before ++ '=' :: a.after ++ a.quote :: (a.value ++ [a.quote])

def text (a : WrittenAttribute) : List Char := a.gap ++ a.assignment

/-- The name in lower case, and what is between the quotes. -/
def entry (a : WrittenAttribute) : String × String :=
  (asciiLowercase (String.ofList a.name), String.ofList a.value)

/-- Whether an attribute has a name, whatever the case of the letters. -/
def isNamed (wanted : String) (a : WrittenAttribute) : Bool :=
  asciiLowercase (String.ofList a.name) == asciiLowercase wanted

theorem quotedValue (a : WrittenAttribute) :
    QuotedValue (a.quote :: (a.value ++ [a.quote])) a.value := by
  have hvalue := a.quote_not_mem
  rcases a.quote_eq with h | h
  · rw [h] at hvalue ⊢
    exact .double hvalue
  · rw [h] at hvalue ⊢
    exact .single hvalue

theorem namedValue (a : WrittenAttribute) : NamedValue a.assignment a.name a.value :=
  .mk a.name_ne_nil a.name_chars a.blank_before a.blank_after a.quotedValue

/-- Any attributes that are written one after the other are attributes of a tag. -/
theorem attributePart_flatMap_text (written : List WrittenAttribute) :
    AttributePart (written.flatMap text) (written.map entry) := by
  induction written with
  | nil => exact .nil
  | cons a written ih => exact .cons a.gap_ne_nil a.blank_gap a.namedValue ih

/-- The attributes of a tag are written one after the other. -/
theorem exists_of_attributePart {part : List Char} {attributes : List (String × String)}
    (h : AttributePart part attributes) :
    ∃ written : List WrittenAttribute, part = written.flatMap text := by
  induction h with
  | nil => exact ⟨[], rfl⟩
  | @cons gap _ name value _ _ hne hgap hvalue _ ih =>
    obtain ⟨written, rfl⟩ := ih
    cases hvalue with
    | @mk _ before after quoted _ hname hchars hbefore hafter hquoted =>
      obtain ⟨quote, hquote, hmem, rfl⟩ : ∃ quote, (quote = '"' ∨ quote = '\'') ∧
          quote ∉ value ∧ quoted = quote :: (value ++ [quote]) := by
        cases hquoted with
        | double hmem => exact ⟨'"', .inl rfl, hmem, rfl⟩
        | single hmem => exact ⟨'\'', .inr rfl, hmem, rfl⟩
      exact ⟨⟨gap, name, before, after, quote, value, hne, hgap, hname, hchars, hbefore, hafter,
        hquote, hmem⟩ :: written, rfl⟩

/-! ## Scanning -/

/-- A scan finds the attributes that were written, in their order. -/
theorem attributesIn_flatMap_text (written : List WrittenAttribute) :
    attributesIn (written.flatMap text) = written.map entry :=
  attributesIn_attributePart (attributePart_flatMap_text written)

theorem lookup_map_entry (wanted : String) (written : List WrittenAttribute) :
    (written.map entry).lookup (asciiLowercase wanted) =
      (written.find? (isNamed wanted)).map fun a => String.ofList a.value := by
  induction written with
  | nil => rfl
  | cons a written ih =>
    have hnamed : (asciiLowercase wanted == a.entry.1) = isNamed wanted a := BEq.comm
    rw [List.map_cons, List.lookup_cons, hnamed, List.find?_cons, ih]
    cases isNamed wanted a <;> rfl

/-- Looking for a name goes by the first attribute that has it. -/
theorem valueIn?_flatMap_text (wanted : String) (written : List WrittenAttribute) :
    valueIn? wanted (written.flatMap text) =
      (written.find? (isNamed wanted)).map fun a => String.ofList a.value := by
  rw [valueIn?_eq_lookup, attributesIn_flatMap_text, lookup_map_entry]

end WrittenAttribute

/-! ## The tags of markup -/

theorem exists_mem_of_mem_consChar {c : Char} {p : Pieces} {text : List Char} {t : Tag}
    (h : (text, t) ∈ (p.consChar c).tagged) : ∃ text', (text', t) ∈ p.tagged := by
  obtain ⟨tagged, last⟩ := p
  cases tagged with
  | nil => exact ⟨text, h⟩
  | cons piece more =>
    rcases List.mem_cons.1 h with heq | h
    · obtain ⟨-, rfl⟩ := Prod.mk.inj heq
      exact ⟨piece.1, List.mem_cons_self⟩
    · exact ⟨text, List.mem_cons_of_mem _ h⟩

/-- What markup is cut at is what the grammar calls a tag. -/
theorem exists_tagText_of_mem_tagged {s text : List Char} {t : Tag}
    (h : (text, t) ∈ (cutAtTags s).tagged) : ∃ u, TagText u t := by
  fun_induction cutAtTags s generalizing text with
  | case1 => cases h
  | case2 c rest hc tag after hread ih =>
    rcases List.mem_cons.1 h with heq | h
    · obtain ⟨-, rfl⟩ := Prod.mk.inj heq
      obtain ⟨u, hu, -⟩ := exists_of_readTag? hread
      exact ⟨u, hu⟩
    · exact ih h
  | case3 c rest hc hread ih =>
    obtain ⟨text', h⟩ := exists_mem_of_mem_consChar h
    exact ih h
  | case4 c rest hc ih =>
    obtain ⟨text', h⟩ := exists_mem_of_mem_consChar h
    exact ih h

/-- The attributes of a tag in markup are those that are written in it, in their order and with
repetitions, and a look-up goes by the first one of a name, whatever the case of the letters. Both
ways to look up a name in lower case give the same. -/
theorem attributes_of_mem_tagged (markup : String) {text : List Char} {t : Tag}
    (h : (text, t) ∈ (cutAtTags markup.toList).tagged) :
    (∃ written : List WrittenAttribute,
      t.attributePart = written.flatMap WrittenAttribute.text) ∧
      ∀ written : List WrittenAttribute,
        t.attributePart = written.flatMap WrittenAttribute.text →
          t.attributes = written.map WrittenAttribute.entry ∧
            ∀ wanted,
              t.attribute? wanted =
                  (written.find? (WrittenAttribute.isNamed wanted)).map
                    (fun a => String.ofList a.value) ∧
                (asciiLowercase wanted = wanted →
                  t.attributes.lookup wanted = t.attribute? wanted) := by
  constructor
  · obtain ⟨u, @⟨_, _, _, _, part, _, attributes, _, _, hpart, _⟩⟩ :=
      exists_tagText_of_mem_tagged h
    exact WrittenAttribute.exists_of_attributePart hpart
  · intro written hwritten
    refine ⟨?_, fun wanted => ⟨?_, fun hlower => ?_⟩⟩
    · rw [Tag.attributes, hwritten, WrittenAttribute.attributesIn_flatMap_text]
    · rw [Tag.attribute?, hwritten, WrittenAttribute.valueIn?_flatMap_text]
    · rw [Tag.attribute?_eq_lookup, hlower]

def quotingMarkup : String := "Hi <bot NAME = \"it's <b> name='x'\"  name='y = \"z\"'/>!"

def quotingTag : Tag where
  closing := false
  name := "bot"
  attributePart := " NAME = \"it's <b> name='x'\"  name='y = \"z\"'".toList
  selfClosing := true

/-- The attributes of the tag. The first value has something in it that looks like an attribute. -/
def quotingAttributes : List WrittenAttribute :=
  [{ gap := [' '], name := "NAME".toList, before := [' '], after := [' '], quote := '"'
     value := "it's <b> name='x'".toList
     gap_ne_nil := by decide
     blank_gap := List.all_eq_true.1 (by decide)
     name_ne_nil := by decide
     name_chars := List.all_eq_true.1 (by decide +kernel)
     blank_before := List.all_eq_true.1 (by decide)
     blank_after := List.all_eq_true.1 (by decide)
     quote_eq := .inl rfl
     quote_not_mem := by decide },
    { gap := [' ', ' '], name := "name".toList, before := [], after := [], quote := '\''
      value := "y = \"z\"".toList
      gap_ne_nil := by decide
      blank_gap := List.all_eq_true.1 (by decide)
      name_ne_nil := by decide
      name_chars := List.all_eq_true.1 (by decide +kernel)
      blank_before := List.all_eq_true.1 (by decide)
      blank_after := List.all_eq_true.1 (by decide)
      quote_eq := .inr rfl
      quote_not_mem := by decide }]

theorem attributes_of_mem_tagged_quoting :
    ("Hi ".toList, quotingTag) ∈ (cutAtTags quotingMarkup.toList).tagged ∧
      quotingTag.attributePart = quotingAttributes.flatMap WrittenAttribute.text ∧
      quotingTag.attributes = [("name", "it's <b> name='x'"), ("name", "y = \"z\"")] ∧
      quotingTag.attribute? "name" = some "it's <b> name='x'" ∧
      asciiLowercase "name" = "name" ∧
      quotingTag.attributes.lookup "name" = some "it's <b> name='x'" := by
  have htag : ("Hi ".toList, quotingTag) ∈ (cutAtTags quotingMarkup.toList).tagged := by
    decide +kernel
  have hwritten : quotingTag.attributePart = quotingAttributes.flatMap WrittenAttribute.text := by
    decide
  have hlower : asciiLowercase "name" = "name" := by decide
  obtain ⟨hattributes, hlookup⟩ :=
    (attributes_of_mem_tagged quotingMarkup htag).2 quotingAttributes hwritten
  obtain ⟨hfirst, hboth⟩ := hlookup "name"
  have hvalue : quotingTag.attribute? "name" = some "it's <b> name='x'" := hfirst.trans (by decide)
  exact ⟨htag, hwritten, hattributes.trans (by decide), hvalue, hlower,
    (hboth hlower).trans hvalue⟩

end Parley.Markup
