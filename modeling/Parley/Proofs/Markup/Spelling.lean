import Parley.Pattern
import Parley.Proofs.Markup.Writing

/-!
# Spelling patterns

A pattern can be spelled in many ways: the names of elements are in any case, a property is one tag
or two, and between two parts there are blanks of any kind and number. Whichever way it is spelled,
it is read as the same parts.

Main results:

* `Pattern.ItemMarkup.readPieces_append` — a part is read off the front of markup, if what is behind
  it does not go on with a word;
* `Pattern.parse_of_joined` — every spelling of a pattern is read as the pattern.
-/

namespace Parley

open Text Markup

namespace Markup

/-! ## Names in any case -/

/-- In lower case a character is what it was, or it was a letter of ASCII. -/
theorem toLower_eq_self_or_isAlpha (c : Char) : c.toLower = c ∨ c.isAlpha = true := by
  unfold Char.toLower
  split
  · next hc =>
    have hupper : c.isUpper = true := decide_eq_true hc
    exact Or.inr ((Bool.or_eq_true ..).mpr (Or.inl hupper))
  · exact Or.inl rfl

/-- A name can begin with a letter in any case. -/
theorem isNameStart_of_toLower {c : Char} (h : isNameStart c.toLower = true) :
    isNameStart c = true := by
  rcases toLower_eq_self_or_isAlpha c with hc | hc
  · rwa [hc] at h
  · simp [isNameStart, hc]

/-- A name can have a letter in any case. -/
theorem isNameChar_of_toLower {c : Char} (h : isNameChar c.toLower = true) :
    isNameChar c = true := by
  rcases toLower_eq_self_or_isAlpha c with hc | hc
  · rwa [hc] at h
  · simp [isNameChar, isWordChar_of_isAlpha hc]

/-- The name of an element can be spelled in any case. -/
theorem spells_of_asciiLowercase {letters name : String} (hname : IsElementName name)
    (h : asciiLowercase letters = name) : Spells letters name := by
  obtain ⟨d, lower, heq, hstart, hlower, -⟩ := hname
  rw [← h, asciiLowercase, String.toList_ofList, List.map_eq_cons_iff] at heq
  obtain ⟨c, rest, hletters, rfl, rfl⟩ := heq
  refine ⟨⟨c, rest, hletters, isNameStart_of_toLower hstart, fun e he => ?_⟩, h⟩
  exact isNameChar_of_toLower (hlower _ (List.mem_map_of_mem he))

end Markup

namespace Pattern

/-! ## Spelled patterns -/

/-- An item that can be spelled: there is nothing to escape brackets and quotes with, words are
taken apart at blanks, and names of sets are taken without the blanks at their ends. -/
def Writable : PatternItem → Prop
  | .word w => IsWord w ∧ '<' ∉ w.toList
  | .property name => '"' ∉ name.toList
  | .set name => trim name = name ∧ '<' ∉ name.toList

instance : DecidablePred Writable
  | .word w =>
    have : Decidable (IsWord w) := decidable_of_iff
      ((!w.toList.isEmpty && w.toList.all fun c => !isBlank c) = true) <| by
      simp [IsWord]
    inferInstanceAs (Decidable (IsWord w ∧ '<' ∉ w.toList))
  | .property name => inferInstanceAs (Decidable ('"' ∉ name.toList))
  | .set name => inferInstanceAs (Decidable (trim name = name ∧ '<' ∉ name.toList))

/-- The ways to spell an item. The names of its elements are in any case. -/
inductive ItemMarkup : PatternItem → List Char → Prop where
  | word (w : String) : ItemMarkup (.word w) w.toList
  | singleTag {element : String} (h : asciiLowercase element = "bot") (name : String) :
    ItemMarkup (.property name) (singleMarkup element [("name", name)])
  | twoTags {opening closing : String} (hopening : asciiLowercase opening = "bot")
    (hclosing : asciiLowercase closing = "bot") (name : String) :
    ItemMarkup (.property name) (openingMarkup opening [("name", name)] ++ closingMarkup closing)
  | set {opening closing : String} (hopening : asciiLowercase opening = "set")
    (hclosing : asciiLowercase closing = "set") (name : String) :
    ItemMarkup (.set name) (openingMarkup opening [] ++ (name.toList ++ closingMarkup closing))

/-- The ways to spell a pattern: its items with blanks between neighbours. -/
inductive Joined : Pattern → List Char → Prop where
  | nil : Joined [] []
  | singleton {item : PatternItem} {text : List Char} (h : ItemMarkup item text) :
    Joined [item] text
  | cons {item next : PatternItem} {items : Pattern} {text gap behind : List Char}
    (h : ItemMarkup item text) (hne : gap ≠ []) (hgap : ∀ c ∈ gap, isBlank c = true)
    (hbehind : Joined (next :: items) behind) :
    Joined (item :: next :: items) (text ++ (gap ++ behind))

/-! ## Reading from the front -/

/-- Reads the markup of a pattern that has been cut at its tags. -/
def readPieces (p : Pieces) : Except Fault Pattern :=
  ofPieces .nothing p.tagged p.last

/-- To parse is to cut at tags and to read the pieces. -/
theorem parse_ofList (s : List Char) : parse (String.ofList s) = readPieces (cutAtTags s) := by
  rw [parse, String.toList_ofList, readPieces]

/-- The text in front of the first tag. -/
def front (p : Pieces) : List Char :=
  match p.tagged with
  | [] => p.last
  | (text, _) :: _ => text

/-- A text that does not start in a word does not start in one in front of the first tag. -/
theorem startsInWord_front {s : List Char} (h : startsInWord s = false) :
    startsInWord (front (cutAtTags s)) = false := by
  cases s with
  | nil =>
    rw [cutAtTags]
    rfl
  | cons c s =>
    have hc : '<' ∉ [c] := by
      intro hc
      rw [← List.mem_singleton.1 hc] at h
      exact absurd h (by simp [startsInWord, show isBlank '<' = false by decide])
    have hcut := cutAtTags_append (tagFree_of_not_mem hc s)
    rw [List.singleton_append] at hcut
    rw [hcut, List.foldr_cons, List.foldr_nil, Pieces.consChar]
    cases cutAtTags s with
    | mk tagged last => cases tagged <;> exact h

/-- The first tag, and what is behind it with the element open that it leaves open. -/
theorem ofPieces_cons (openElement : Open) (text : List Char) (tag : Tag)
    (more : List (List Char × Tag)) (last : List Char) :
    ofPieces openElement ((text, tag) :: more) last =
      (readTag openElement text tag).bind fun found =>
        (ofPieces found.2 more last).map (found.1 ++ ·) := by
  rw [ofPieces]
  cases readTag openElement text tag with
  | error fault => rfl
  | ok found =>
    cases hmore : ofPieces found.2 more last <;>
      simp [bind, Except.bind, Except.map, pure, Except.pure, hmore]

/-- A tag that can stand where it stands is read before what is behind it. -/
theorem ofPieces_of_readTag {openElement behind : Open} {text : List Char} {tag : Tag}
    {items : Pattern} (h : readTag openElement text tag = .ok (items, behind))
    (more : List (List Char × Tag)) (last : List Char) :
    ofPieces openElement ((text, tag) :: more) last =
      (ofPieces behind more last).map (items ++ ·) := by
  rw [ofPieces_cons, h]
  rfl

/-- Words in front of a tag do not matter to what the tag means. -/
theorem readTag_of_words {text rest : List Char} {items : Pattern}
    (h : wordItems text = items ++ wordItems rest) (tag : Tag) :
    readTag .nothing text tag =
      (readTag .nothing rest tag).map fun found => (items ++ found.1, found.2) := by
  cases hname : tag.attribute? "name" <;> simp only [readTag, h, hname] <;> split_ifs <;>
    simp [Except.map]

/-- A text without tags in front of markup adds the items it consists of. -/
theorem readPieces_append {text behind : List Char} {items : Pattern} (hfree : '<' ∉ text)
    (h : wordItems (text ++ front (cutAtTags behind)) =
      items ++ wordItems (front (cutAtTags behind))) :
    readPieces (cutAtTags (text ++ behind)) =
      (readPieces (cutAtTags behind)).map (items ++ ·) := by
  rw [cutAtTags_append (tagFree_of_not_mem hfree behind)]
  generalize cutAtTags behind = p at h ⊢
  obtain ⟨tagged, last⟩ := p
  -- the text joins what is in front of the first tag, or all there is if there are no tags
  cases tagged with
  | nil =>
    rw [foldr_consChar_nil]
    exact congrArg Except.ok h
  | cons piece more =>
    obtain ⟨s, tag⟩ := piece
    have hpiece : wordItems (text ++ s) = items ++ wordItems s := h
    rw [foldr_consChar_cons, readPieces, readPieces, ofPieces_cons, ofPieces_cons,
      readTag_of_words hpiece]
    cases readTag .nothing s tag with
    | error fault => rfl
    | ok found =>
      dsimp only [Except.map, Except.bind]
      cases ofPieces found.2 more last with
      | error fault => rfl
      | ok more => simp

/-- Blanks in front of markup are skipped. -/
theorem readPieces_blanks {gap : List Char} (hgap : ∀ c ∈ gap, isBlank c = true)
    (behind : List Char) :
    readPieces (cutAtTags (gap ++ behind)) = readPieces (cutAtTags behind) := by
  have hfree : '<' ∉ gap := fun hbracket => absurd (hgap '<' hbracket) (by decide)
  have hwords : wordItems (gap ++ front (cutAtTags behind)) =
      [] ++ wordItems (front (cutAtTags behind)) := by
    rw [wordItems, ← breakWords_dropWhile, List.dropWhile_append_of_pos hgap, breakWords_dropWhile,
      List.nil_append, wordItems]
  have hread := readPieces_append hfree hwords
  cases hbehind : readPieces (cutAtTags behind) <;> rw [hread, hbehind] <;> rfl

/-- A word is read off the front of markup that does not go on with it. -/
theorem readPieces_word {w : String} (hw : IsWord w) (hfree : '<' ∉ w.toList) {behind : List Char}
    (hbehind : startsInWord behind = false) :
    readPieces (cutAtTags (w.toList ++ behind)) =
      (readPieces (cutAtTags behind)).map (.word w :: ·) := by
  refine @readPieces_append w.toList behind [.word w] hfree ?_
  rw [wordItems, breakWords_append hw.1 hw.2 (startsInWord_front hbehind), List.map_cons,
    String.ofList_toList]
  rfl

/-- A tag at the start of markup is read with what is behind it. -/
theorem cutAtTags_tag {u : List Char} {t : Tag} (h : TagText u t) (behind : List Char) :
    cutAtTags (u ++ behind) = (cutAtTags behind).consTag t := by
  obtain ⟨inside, rfl, hread⟩ := readTag?_append h
  exact cutAtTags_of_some (hread behind)

/-! ## Elements -/

/-- A property in any case. -/
theorem spells_bot {letters : String} (h : asciiLowercase letters = "bot") :
    Spells letters "bot" :=
  spells_of_asciiLowercase
    ⟨'b', ['o', 't'], rfl, by decide, List.all_eq_true.1 (by decide +kernel), by decide +kernel⟩ h

/-- A set in any case. -/
theorem spells_set {letters : String} (h : asciiLowercase letters = "set") :
    Spells letters "set" :=
  spells_of_asciiLowercase (Template.isElementName_of_mem (by decide)) h

/-- A name without quotation marks can be written. -/
theorem isAttribute_name {name : String} (h : '"' ∉ name.toList) :
    ∀ a ∈ [("name", name)], IsAttribute a :=
  List.forall_mem_singleton.2 (Template.isAttribute_scopeName h .predicate)

/-- The tag of a property is read with its name, and closed at once or left open. -/
theorem readTag_property {name : String} (h : '"' ∉ name.toList) (selfClosing : Bool) :
    readTag .nothing [] (writtenTag false selfClosing "bot" [("name", name)]) =
      .ok ([.property name], if selfClosing then .nothing else .property) := by
  have hname : (writtenTag false selfClosing "bot" [("name", name)]).attribute? "name" =
      some name := by
    rw [Tag.attribute?_eq_lookup, attributes_writtenTag (isAttribute_name h)]
    rfl
  simp only [readTag, hname]
  simp [writtenTag, wordItems, breakWords]

/-- Its closing tag adds nothing. -/
theorem readTag_property_end :
    readTag .property [] (writtenTag true false "bot" []) = .ok ([], .nothing) := by
  simp [readTag, writtenTag]

/-- The tag of a set leaves it open. -/
theorem readTag_set : readTag .nothing [] (writtenTag false false "set" []) = .ok ([], .set) := by
  simp [readTag, writtenTag, wordItems, breakWords]

/-- The closing tag of a set takes the text in front of it as the name. -/
theorem readTag_set_end {name : String} (h : trim name = name) :
    readTag .set name.toList (writtenTag true false "set" []) = .ok ([.set name], .nothing) := by
  have hname : String.ofList (strip name.toList) = name := h
  simp [readTag, writtenTag, hname]

/-- **An item is read off the front of markup**, whichever way it is spelled, if what is behind it
does not go on with a word. -/
theorem ItemMarkup.readPieces_append {item : PatternItem} {text : List Char}
    (h : ItemMarkup item text) (hitem : Writable item) {behind : List Char}
    (hbehind : startsInWord behind = false) :
    readPieces (cutAtTags (text ++ behind)) =
      (readPieces (cutAtTags behind)).map (item :: ·) := by
  have hnone : ∀ a ∈ ([] : List (String × String)), IsAttribute a := fun a ha => nomatch ha
  -- one case for each way to spell an item; only a word can run into what is behind it
  cases h with
  | word w => exact readPieces_word hitem.1 hitem.2 hbehind
  | @singleTag letters hletters name =>
    have htag := tagText_singleMarkup (spells_bot hletters) (isAttribute_name hitem)
    rw [cutAtTags_tag htag]
    exact ofPieces_of_readTag (readTag_property hitem true) _ _
  | @twoTags opening closing hopening hclosing name =>
    -- the first tag gives the item, the second one only closes it
    have htag := tagText_openingMarkup (spells_bot hopening) (isAttribute_name hitem)
    have hend := tagText_closingMarkup (spells_bot hclosing)
    have hread : readTag .nothing [] (writtenTag false false "bot" [("name", name)]) =
        .ok ([.property name], .property) := readTag_property hitem false
    rw [List.append_assoc, cutAtTags_tag htag, cutAtTags_tag hend, readPieces, Pieces.consTag,
      Pieces.consTag, ofPieces_of_readTag hread, ofPieces_of_readTag readTag_property_end,
      readPieces]
    cases ofPieces .nothing (cutAtTags behind).tagged (cutAtTags behind).last <;> rfl
  | @set opening closing hopening hclosing name =>
    -- the first tag gives nothing, the second one takes the text in front of it
    have htag := tagText_openingMarkup (spells_set hopening) hnone
    have hend := tagText_closingMarkup (spells_set hclosing)
    have hfree := tagFree_of_not_mem hitem.2 (closingMarkup closing ++ behind)
    rw [List.append_assoc, cutAtTags_tag htag, List.append_assoc, cutAtTags_append hfree,
      cutAtTags_tag hend, foldr_consChar_consTag, readPieces, Pieces.consTag,
      ofPieces_of_readTag readTag_set, ofPieces_of_readTag (readTag_set_end hitem.1), readPieces]
    cases ofPieces .nothing (cutAtTags behind).tagged (cutAtTags behind).last <;> rfl

/-- All items are read, one after the other. -/
theorem Joined.readPieces_eq {items : Pattern} {text : List Char} (h : Joined items text)
    (hitems : ∀ item ∈ items, Writable item) : readPieces (cutAtTags text) = .ok items := by
  have hnil : readPieces (cutAtTags []) = .ok [] := by
    rw [cutAtTags]
    rfl
  induction h with
  | nil => exact hnil
  | @singleton item text h =>
    have hitem := hitems item List.mem_cons_self
    have hend : startsInWord [] = false := rfl
    have hread := h.readPieces_append hitem hend
    rwa [List.append_nil, hnil] at hread
  | @cons item next items text gap behind h hne hgap hbehind ih =>
    obtain ⟨hitem, hmore⟩ := List.forall_mem_cons.1 hitems
    -- a gap ends words and is nothing else
    have hstart : startsInWord (gap ++ behind) = false := by
      obtain ⟨c, gap, rfl⟩ := List.exists_cons_of_ne_nil hne
      simp [startsInWord, hgap c List.mem_cons_self]
    rw [h.readPieces_append hitem hstart, readPieces_blanks hgap, ih hmore]
    rfl

/-- **Every spelling of a pattern is read as the pattern.** -/
theorem parse_of_joined {items : Pattern} (hitems : ∀ item ∈ items, Writable item)
    {text : List Char} (h : Joined items text) : parse (String.ofList text) = .ok items := by
  rw [parse_ofList, h.readPieces_eq hitems]

theorem parse_of_joined_colors :
    parse "WHAT IS\u2003<BoT name=\"a<b>'\"></bOT>\n<sEt>my colors></SET> \t<bot name=\"\"/> *" =
      .ok [.word "WHAT", .word "IS", .property "a<b>'", .set "my colors>", .property "",
        .word "*"] := by
  have htext :
      "WHAT IS\u2003<BoT name=\"a<b>'\"></bOT>\n<sEt>my colors></SET> \t<bot name=\"\"/> *" =
      String.ofList ("WHAT".toList ++ ([' '] ++ ("IS".toList ++ (['\u2003'] ++
        (openingMarkup "BoT" [("name", "a<b>'")] ++ closingMarkup "bOT" ++ (['\n'] ++
          (openingMarkup "sEt" [] ++ ("my colors>".toList ++ closingMarkup "SET") ++ ([' ', '\t'] ++
            (singleMarkup "bot" [("name", "")] ++ ([' '] ++ "*".toList)))))))))) := by
    decide +kernel
  have hspace : ∀ c ∈ [' '], isBlank c = true := List.all_eq_true.1 (by decide)
  have hwide : ∀ c ∈ ['\u2003'], isBlank c = true := List.all_eq_true.1 (by decide)
  have hline : ∀ c ∈ ['\n'], isBlank c = true := List.all_eq_true.1 (by decide)
  have htab : ∀ c ∈ [' ', '\t'], isBlank c = true := List.all_eq_true.1 (by decide)
  have hname : ItemMarkup (.property "a<b>'")
      (openingMarkup "BoT" [("name", "a<b>'")] ++ closingMarkup "bOT") :=
    .twoTags (by decide +kernel) (by decide +kernel) _
  have hset : ItemMarkup (.set "my colors>")
      (openingMarkup "sEt" [] ++ ("my colors>".toList ++ closingMarkup "SET")) :=
    .set (by decide +kernel) (by decide +kernel) _
  have hempty : ItemMarkup (.property "") (singleMarkup "bot" [("name", "")]) :=
    .singleTag (by decide +kernel) _
  have hjoined := Joined.cons (.word "WHAT") (List.cons_ne_nil _ _) hspace <|
    .cons (.word "IS") (List.cons_ne_nil _ _) hwide <|
    .cons hname (List.cons_ne_nil _ _) hline <|
    .cons hset (List.cons_ne_nil _ _) htab <|
    .cons hempty (List.cons_ne_nil _ _) hspace <|
    .singleton (.word "*")
  rw [htext]
  exact parse_of_joined (by decide +kernel) hjoined

end Pattern

end Parley
