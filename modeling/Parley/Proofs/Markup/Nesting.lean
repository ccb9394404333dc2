import Parley.Template.Reader
import Parley.Proofs.Markup.Lexemes

/-!
# Nesting

Which markup can be read as a template, said by a grammar: its tags are well nested, and every
element is one that may stand there. The reader keeps a stack of open elements instead.

Main results:

* `buildPart_eq_ok_iff` — which elements there are, and what they stand for;
* `Nests.readLexemes_append`, `exists_nests` — the stack is left as it was found by well-nested
  markup, and only by it;
* `parseContent_eq_ok_iff` — what can be read, and as what.
-/

namespace Parley.Template

open Text Markup

/-! ## Elements -/

/-- Whether attributes give the number of a capture: it is one, or given and at least one. -/
def HasIndex (attributes : List (String × String)) (n : Nat) : Prop :=
  (attributes.lookup "index" = none ∧ n = 1) ∨
    ∃ value, attributes.lookup "index" = some value ∧ readNumber? (trim value) = some n ∧ 1 ≤ n

/-- Whether attributes say where a value is kept. -/
inductive HasTarget (attributes : List (String × String)) : String → Scope → Prop where
  | predicate {name : String} (h : attributes.lookup "name" = some name) :
    HasTarget attributes name .predicate
  | variable {name : String} (hname : attributes.lookup "name" = none)
    (h : attributes.lookup "var" = some name) : HasTarget attributes name .variable

/-- The element that stands for a capture. -/
def captureName : Segment → String
  | .message => "star"
  | .that => "thatstar"
  | .topic => "topicstar"

/-- Whether an element with the given attributes and content may stand in a template, and what it
stands for. -/
inductive Stands (registry : Registry) (attributes : List (String × String)) (content : Content) :
    String → Part → Prop where
  | star {segment : Segment} {n : Nat} (h : HasIndex attributes n) :
    Stands registry attributes content (captureName segment) (.star segment n)
  | sr : Stands registry attributes content "sr" (.srai [.star .message 1])
  | srai : Stands registry attributes content "srai" (.srai content)
  | think : Stands registry attributes content "think" (.think content)
  | get {name : String} {scope : Scope} (h : HasTarget attributes name scope) :
    Stands registry attributes content "get" (.get name scope)
  | set {name : String} {scope : Scope} (h : HasTarget attributes name scope) :
    Stands registry attributes content "set" (.set name scope content)
  | extension {name : String} {extension : Extension} (hname : name ∉ builtInNames)
    (hget : registry.get? name = some extension)
    (haccept : extension.accept { name, attributes, content } = .ok ()) :
    Stands registry attributes content name (.extension name attributes content)

variable {registry : Registry} {attributes : List (String × String)} {content : Content}

theorem readIndex_eq_ok_iff {element : String} {n : Nat} :
    readIndex element attributes = .ok n ↔ HasIndex attributes n := by
  unfold readIndex HasIndex
  cases attributes.lookup "index" with
  | none => simp [eq_comm]
  | some value =>
    cases hread : readNumber? (trim value) with
    | none => simp [hread]
    | some m =>
      cases m with
      | zero => simp [hread]; omega
      | succ m => simp [hread]; omega

theorem readTarget_eq_ok_iff {element name : String} {scope : Scope} :
    readTarget element attributes = .ok (name, scope) ↔ HasTarget attributes name scope := by
  unfold readTarget
  constructor
  · intro h
    split at h
    · next hname =>
      obtain ⟨rfl, rfl⟩ := Prod.mk.inj (Except.ok.inj h)
      exact .predicate hname
    · next hname hvar =>
      obtain ⟨rfl, rfl⟩ := Prod.mk.inj (Except.ok.inj h)
      exact .variable hname hvar
    · cases h
  · intro h
    cases h with
    | predicate h => rw [h]
    | «variable» hname h => rw [hname, h]

theorem map_eq_ok_iff {α β : Type} {x : Except Fault α} {f : α → β} {b : β} :
    x.map f = .ok b ↔ ∃ a, x = .ok a ∧ f a = b := by
  cases x <;> simp [Except.map]

/-- Which elements there are, and what they stand for. -/
theorem buildPart_eq_ok_iff {name : String} {part : Part} :
    buildPart registry name attributes content = .ok part ↔
      Stands registry attributes content name part := by
  constructor
  · intro h
    unfold buildPart at h
    split at h
    · obtain ⟨n, hn, rfl⟩ := map_eq_ok_iff.1 h
      exact @Stands.star _ _ _ .message _ (readIndex_eq_ok_iff.1 hn)
    · obtain ⟨n, hn, rfl⟩ := map_eq_ok_iff.1 h
      exact @Stands.star _ _ _ .that _ (readIndex_eq_ok_iff.1 hn)
    · obtain ⟨n, hn, rfl⟩ := map_eq_ok_iff.1 h
      exact @Stands.star _ _ _ .topic _ (readIndex_eq_ok_iff.1 hn)
    · obtain rfl := Except.ok.inj h
      exact .sr
    · obtain rfl := Except.ok.inj h
      exact .srai
    · obtain rfl := Except.ok.inj h
      exact .think
    · obtain ⟨⟨name, scope⟩, htarget, rfl⟩ := map_eq_ok_iff.1 h
      exact .get (readTarget_eq_ok_iff.1 htarget)
    · obtain ⟨⟨name, scope⟩, htarget, rfl⟩ := map_eq_ok_iff.1 h
      exact .set (readTarget_eq_ok_iff.1 htarget)
    -- the name is that of none of the built-in elements
    · next hstar hthat htopic hsr hsrai hthink hgetName hset =>
      split at h
      · cases h
      · next extension hget =>
        obtain ⟨⟨⟩, haccept, rfl⟩ := map_eq_ok_iff.1 h
        refine .extension ?_ hget haccept
        simp only [builtInNames, List.mem_cons, List.not_mem_nil, or_false, not_or]
        exact ⟨hstar, hthat, htopic, hsr, hsrai, hthink, hgetName, hset⟩
  · intro h
    cases h with
    | @star segment n h =>
      cases segment <;> exact map_eq_ok_iff.2 ⟨n, readIndex_eq_ok_iff.2 h, rfl⟩
    | sr => rfl
    | srai => rfl
    | think => rfl
    | get h => exact map_eq_ok_iff.2 ⟨_, readTarget_eq_ok_iff.2 h, rfl⟩
    | set h => exact map_eq_ok_iff.2 ⟨_, readTarget_eq_ok_iff.2 h, rfl⟩
    | extension hname hget haccept =>
      simp only [builtInNames, List.mem_cons, List.not_mem_nil, or_false, not_or] at hname
      unfold buildPart
      split
      case _ => exact absurd rfl hname.1
      case _ => exact absurd rfl hname.2.1
      case _ => exact absurd rfl hname.2.2.1
      case _ => exact absurd rfl hname.2.2.2.1
      case _ => exact absurd rfl hname.2.2.2.2.1
      case _ => exact absurd rfl hname.2.2.2.2.2.1
      case _ => exact absurd rfl hname.2.2.2.2.2.2.1
      case _ => exact absurd rfl hname.2.2.2.2.2.2.2
      case _ =>
        rw [hget]
        exact map_eq_ok_iff.2 ⟨(), haccept, rfl⟩

/-! ## Well-nested markup -/

/-- Whether markup is well nested and every element in it may stand there, and what content it is
the markup of: every closing tag closes the innermost open element, and no element is left open.
Names of tags are in lower case, so that their case does not matter. -/
inductive Nests (registry : Registry) : List Lexeme → Content → Prop where
  | nil : Nests registry [] []
  | text {s : List Char} {ls : List Lexeme} {content : Content} (h : Nests registry ls content) :
    Nests registry (.text s :: ls) (.text (String.ofList s) :: content)
  | single {t : Tag} {part : Part} {ls : List Lexeme} {content : Content}
    (hopening : t.closing = false) (hself : t.selfClosing = true)
    (hpart : Stands registry t.attributes [] t.name part) (h : Nests registry ls content) :
    Nests registry (.tag t :: ls) (part :: content)
  | element {t t' : Tag} {part : Part} {inside ls : List Lexeme} {children content : Content}
    (hopening : t.closing = false) (hself : t.selfClosing = false)
    (hinside : Nests registry inside children) (hclosing : t'.closing = true)
    (hname : t'.name = t.name) (hpart : Stands registry t.attributes children t.name part)
    (h : Nests registry ls content) :
    Nests registry (.tag t :: (inside ++ .tag t' :: ls)) (part :: content)

/-! ## Reading one part of the markup after the other -/

/-- Reads markup part by part. `outer` are the open elements, the innermost first, and `content` is
what the innermost one holds so far. -/
def readLexemes (registry : Registry) :
    (outer : List OpenElement) → (content : Content) → List Lexeme → Except Fault Content
  | outer, content, [] =>
    match outer with
    | [] => .ok content
    | element :: _ => .error (.unterminated element.name)
  | outer, content, .text s :: ls =>
    readLexemes registry outer (content ++ [.text (String.ofList s)]) ls
  | outer, content, .tag t :: ls =>
    if t.closing then
      match outer with
      | [] => .error (.unexpectedClose t.name)
      | element :: outer =>
        if element.name == t.name then
          match buildPart registry element.name element.attributes content with
          | .error fault => .error fault
          | .ok part => readLexemes registry outer (element.before ++ [part]) ls
        else .error (.unexpectedClose t.name)
    else if t.selfClosing then
      match buildPart registry t.name t.attributes [] with
      | .error fault => .error fault
      | .ok part => readLexemes registry outer (content ++ [part]) ls
    else
      readLexemes registry
        ({ name := t.name, attributes := t.attributes, before := content } :: outer) [] ls

theorem readLexemes_opening {t : Tag} (hopening : t.closing = false) (hself : t.selfClosing = false)
    (outer : List OpenElement) (content : Content) (ls : List Lexeme) :
    readLexemes registry outer content (.tag t :: ls) =
      readLexemes registry
        ({ name := t.name, attributes := t.attributes, before := content } :: outer) [] ls := by
  rw [readLexemes.eq_def]
  simp [hopening, hself]

theorem readLexemes_single {t : Tag} (hopening : t.closing = false) (hself : t.selfClosing = true)
    (outer : List OpenElement) (content : Content) (ls : List Lexeme) :
    readLexemes registry outer content (.tag t :: ls) =
      (buildPart registry t.name t.attributes []).bind fun part =>
        readLexemes registry outer (content ++ [part]) ls := by
  rw [readLexemes.eq_def]
  simp only [hopening, hself, Bool.false_eq_true, if_false, if_true]
  cases buildPart registry t.name t.attributes [] <;> rfl

theorem readLexemes_closing {t : Tag} (hclosing : t.closing = true) (element : OpenElement)
    (outer : List OpenElement) (content : Content) (ls : List Lexeme) :
    readLexemes registry (element :: outer) content (.tag t :: ls) =
      if element.name = t.name then
        (buildPart registry element.name element.attributes content).bind fun part =>
          readLexemes registry outer (element.before ++ [part]) ls
      else .error (.unexpectedClose t.name) := by
  rw [readLexemes.eq_def]
  simp only [hclosing, if_true, beq_iff_eq]
  cases buildPart registry element.name element.attributes content <;> rfl

theorem readLexemes_closing_nil {t : Tag} (hclosing : t.closing = true) (content : Content)
    (ls : List Lexeme) :
    readLexemes registry [] content (.tag t :: ls) = .error (.unexpectedClose t.name) := by
  rw [readLexemes.eq_def]
  simp [hclosing]

theorem readLexemes_textLexemes (outer : List OpenElement) (content : Content) (s : List Char)
    (ls : List Lexeme) :
    readLexemes registry outer content (textLexemes s ++ ls) =
      readLexemes registry outer (content ++ textParts s) ls := by
  cases s with
  | nil => simp [textLexemes, textParts]
  | cons c s => simp [textLexemes, textParts, readLexemes]

theorem readPieces_eq (outer : List OpenElement) (content : Content)
    (tagged : List (List Char × Tag)) (last : List Char) :
    readPieces registry outer content tagged last =
      readLexemes registry outer content (Pieces.lexemes { tagged, last }) := by
  induction tagged generalizing outer content with
  | nil =>
    have hlexemes : Pieces.lexemes { tagged := [], last } = textLexemes last ++ [] := by
      simp [Pieces.lexemes]
    rw [hlexemes, readLexemes_textLexemes]
    cases outer <;> rfl
  | cons piece tagged ih =>
    obtain ⟨s, t⟩ := piece
    have hlexemes : Pieces.lexemes { tagged := (s, t) :: tagged, last } =
        textLexemes s ++ .tag t :: Pieces.lexemes { tagged, last } := by
      simp [Pieces.lexemes]
    rw [hlexemes, readLexemes_textLexemes, readPieces.eq_def]
    -- the three kinds of tags are read alike, with the text in front of them in the content
    cases hclosing : t.closing with
    | true =>
      cases outer with
      | nil =>
        rw [readLexemes_closing_nil hclosing]
        exact if_pos hclosing
      | cons element outer =>
        rw [readLexemes_closing hclosing]
        simp only [hclosing, if_true, beq_iff_eq]
        cases buildPart registry element.name element.attributes (content ++ textParts s) with
        | error fault => rfl
        | ok part => exact if_congr Iff.rfl (ih outer _) rfl
    | false =>
      cases hself : t.selfClosing with
      | true =>
        rw [readLexemes_single hclosing hself]
        simp only [hclosing, hself, Bool.false_eq_true, if_false, if_true]
        cases buildPart registry t.name t.attributes [] with
        | error fault => rfl
        | ok part => exact ih outer _
      | false =>
        rw [readLexemes_opening hclosing hself]
        simp only [hclosing, hself, Bool.false_eq_true, if_false]
        exact ih _ []

theorem parseContent_eq (markup : String) :
    parseContent registry markup =
      readLexemes registry [] [] (cutAtTags markup.toList).lexemes :=
  readPieces_eq ..

/-! ## The reader and the grammar -/

/-- Well-nested markup is read as its content, whatever is around it. -/
theorem Nests.readLexemes_append {inside : List Lexeme} {children : Content}
    (h : Nests registry inside children) (outer : List OpenElement) (content : Content)
    (ls : List Lexeme) :
    readLexemes registry outer content (inside ++ ls) =
      readLexemes registry outer (content ++ children) ls := by
  induction h generalizing outer content ls with
  | nil => simp
  | text _ ih => rw [List.cons_append, readLexemes, ih, List.append_assoc, List.singleton_append]
  | single hopening hself hpart _ ih =>
    rw [List.cons_append, readLexemes_single hopening hself, buildPart_eq_ok_iff.2 hpart]
    exact (ih outer _ ls).trans (by rw [List.append_assoc, List.singleton_append])
  | @element t t' part inside behind children content' hopening hself _ hclosing hname hpart _ ihin
      ih =>
    have hbehind : .tag t :: (inside ++ .tag t' :: behind) ++ ls =
        .tag t :: (inside ++ .tag t' :: (behind ++ ls)) := by simp
    rw [hbehind, readLexemes_opening hopening hself, ihin, readLexemes_closing hclosing,
      if_pos hname.symm, List.nil_append, buildPart_eq_ok_iff.2 hpart]
    exact (ih outer _ ls).trans (by rw [List.append_assoc, List.singleton_append])

/-- How reading may come to an end behind well-nested markup: at the end of the markup if no element
is open, or else with the closing tag of the innermost one. -/
inductive Ends (registry : Registry) :
    List OpenElement → Content → List Lexeme → Content → Prop where
  | done {content : Content} : Ends registry [] content [] content
  | close {element : OpenElement} {outer : List OpenElement} {content result : Content} {t : Tag}
    {ls : List Lexeme} {part : Part} (hclosing : t.closing = true) (hname : t.name = element.name)
    (hpart : Stands registry element.attributes content element.name part)
    (h : readLexemes registry outer (element.before ++ [part]) ls = .ok result) :
    Ends registry (element :: outer) content (.tag t :: ls) result

/-- What has been read begins with well-nested markup. -/
theorem exists_nests {outer : List OpenElement} {content result : Content} {ls : List Lexeme}
    (h : readLexemes registry outer content ls = .ok result) :
    ∃ inside children behind, ls = inside ++ behind ∧ Nests registry inside children ∧
      Ends registry outer (content ++ children) behind result := by
  -- an element takes a part of the markup away, and then what is behind it is shorter
  induction hn : ls.length using Nat.strong_induction_on generalizing outer content ls with
  | _ n ih =>
    subst hn
    cases ls with
    | nil =>
      cases outer with
      | nil =>
        obtain rfl := Except.ok.inj h
        exact ⟨[], [], [], rfl, .nil, by rw [List.append_nil]; exact .done⟩
      | cons element outer => cases h
    | cons l ls =>
      cases l with
      | text s =>
        rw [readLexemes] at h
        obtain ⟨inside, children, behind, rfl, hinside, hends⟩ := ih _ (by simp) h rfl
        rw [List.append_assoc, List.singleton_append] at hends
        exact ⟨.text s :: inside, _, behind, rfl, .text hinside, hends⟩
      | tag t =>
        cases hclosing : t.closing with
        | true =>
          cases outer with
          | nil =>
            rw [readLexemes_closing_nil hclosing] at h
            cases h
          | cons element outer =>
            rw [readLexemes_closing hclosing] at h
            split at h
            · next hname =>
              obtain ⟨part, hpart, h⟩ := bind_eq_ok_iff.1 h
              refine ⟨[], [], _, rfl, .nil, ?_⟩
              rw [List.append_nil]
              exact .close hclosing hname.symm (buildPart_eq_ok_iff.1 hpart) h
            · cases h
        | false =>
          cases hself : t.selfClosing with
          | true =>
            rw [readLexemes_single hclosing hself] at h
            obtain ⟨part, hpart, h⟩ := bind_eq_ok_iff.1 h
            obtain ⟨inside, children, behind, rfl, hinside, hends⟩ := ih _ (by simp) h rfl
            rw [List.append_assoc, List.singleton_append] at hends
            exact ⟨.tag t :: inside, _, behind, rfl,
              .single hclosing hself (buildPart_eq_ok_iff.1 hpart) hinside, hends⟩
          | false =>
            rw [readLexemes_opening hclosing hself] at h
            obtain ⟨inside, children, behind, rfl, hinside, hends⟩ := ih _ (by simp) h rfl
            cases hends with
            | @close _ _ _ _ t' rest part hclosing' hname hpart h =>
              obtain ⟨inside', children', behind', rfl, hinside', hends'⟩ :=
                ih _ (by simp only [List.length_cons, List.length_append]; omega) h rfl
              rw [List.append_assoc, List.singleton_append] at hends'
              exact ⟨.tag t :: (inside ++ .tag t' :: inside'), part :: children', behind',
                by simp, .element hclosing hself hinside hclosing' hname hpart hinside', hends'⟩

/-- What can be read is the well-nested markup, and it is read as what it is the markup of. -/
theorem parseContent_eq_ok_iff {markup : String} :
    parseContent registry markup = .ok content ↔
      ∃ ls, Lexed markup.toList ls ∧ Nests registry ls content := by
  rw [parseContent_eq]
  constructor
  · intro h
    obtain ⟨inside, children, behind, hls, hinside, hends⟩ := exists_nests h
    cases hends
    rw [List.append_nil] at hls
    exact ⟨_, lexed_iff.2 rfl, hls ▸ hinside⟩
  · rintro ⟨ls, hls, hnests⟩
    rw [← lexed_iff.1 hls]
    have hread := hnests.readLexemes_append [] [] []
    rw [List.append_nil, List.nil_append] at hread
    rw [hread, readLexemes]

end Parley.Template
