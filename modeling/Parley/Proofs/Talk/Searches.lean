import Parley.Proofs.Sentences
import Parley.Proofs.Talk.Confinement
import Parley.Proofs.Talk.Context
import Parley.Proofs.Talk.Keeping

/-!
# What is searched for

A sentence is searched for without the marks and blanks at its end. Sentences are cut off without
the one mark that ends them, and those that are blank then are left out. A text of several marks and
nothing else is not: one mark ends it, and the others are a sentence, of which nothing is left to be
searched for.

Every search is made for a sentence of the request, or for a sentence of a text that was asked for
in a sub-request. So no search is made for nothing, as long as none of these texts has such a
sentence.

Main results:

* `Sentence.forall_normalize_ne_empty_iff` — which texts have sentences of which nothing is left;
* `Bot.sourced_noteAnswer` — where the searches for a sentence come from, at every depth;
* `Bot.chat_searches_words` — when a request leads to searches with words only.
-/

namespace Parley

open Text

/-! ## Nothing but marks -/

namespace Sentence

variable {marks : List Char} {config : Config}

/-- Whether a text has nothing but marks and blanks. -/
def IsBare (marks s : List Char) : Prop := ∀ c ∈ s, c ∈ marks ∨ isBlank c = true

instance (marks s : List Char) : Decidable (IsBare marks s) :=
  decidable_of_iff ((s.all fun c => marks.contains c || isBlank c) = true) <| by
    simp [IsBare, List.all_eq_true]

/-- Whether the sentences that end in a text have no marks in front of the one that ends them, as
far as they have nothing but marks and blanks. -/
def LoneMarks (marks s : List Char) : Prop :=
  ∀ ended rest, Parted marks s ended rest → ∀ sentence ∈ ended, IsBare marks sentence.1 →
    ∀ c ∈ sentence.1, isBlank c = true

/-- Blanks at the ends do not matter. -/
theorem isBare_strip_iff {s : List Char} : IsBare marks (strip s) ↔ IsBare marks s := by
  obtain ⟨before, behind, hs, hbefore, hbehind⟩ := exists_blanks_strip s
  constructor
  · intro hbare c hc
    rw [hs, List.mem_append, List.mem_append] at hc
    rcases hc with (hc | hc) | hc
    · exact Or.inr (hbefore c hc)
    · exact hbare c hc
    · exact Or.inr (hbehind c hc)
  · exact fun hbare c hc => hbare c ((isInfix_strip s).subset hc)

/-- Without substitutions, nothing is left of exactly the texts of marks and blanks. -/
theorem normalize_eq_empty_iff (hnone : config.substitutions.items = []) {text : String} :
    config.normalize text = "" ↔ IsBare config.marks text.toList := by
  have happly : config.substitutions.apply text = text := by rw [Substitutions.apply, hnone]
  rw [Config.normalize, Parley.normalize, happly, String.ofList_eq_empty_iff]
  refine List.rdropWhile_eq_nil_iff.trans (forall₂_congr fun c _ => ?_)
  rw [Bool.or_eq_true, List.contains_iff_mem]

/-- **Something is left of every sentence of a text** exactly if its sentences of marks and blanks
only are lone marks. -/
theorem forall_normalize_ne_empty_iff (hnone : config.substitutions.items = []) (text : String) :
    (∀ s ∈ config.splitSentences false text, config.normalize s ≠ "") ↔
      LoneMarks config.marks text.toList := by
  -- without substitutions, nothing is left of a sentence of marks and blanks, and of no other
  have hleft : ∀ p : List Char, config.normalize (String.ofList (strip p)) = "" ↔
      IsBare config.marks p := by
    intro p
    rw [normalize_eq_empty_iff hnone, String.toList_ofList, isBare_strip_iff]
  have hwritten : ∀ sentence : List Char × Char, written false sentence = sentence.1 :=
    fun sentence => List.append_nil _
  constructor
  · intro hall ended rest hparts sentence hsentence hbare
    rw [← strip_eq_nil_iff]
    -- a sentence of marks only that is not dropped is searched for as nothing
    by_contra hne
    refine hall (String.ofList (strip sentence.1)) ?_ ((hleft _).2 hbare)
    rw [Config.splitSentences, splitSentences_eq, hparts.pieces_eq]
    refine mem_trimmed_iff.2 ⟨sentence.1, List.mem_append_left _ ?_, hne, rfl⟩
    exact List.mem_map.2 ⟨sentence, hsentence, hwritten sentence⟩
  · intro hlone s hs hempty
    obtain ⟨ended, rest, hparts⟩ := exists_parted config.marks text.toList
    rw [Config.splitSentences, splitSentences_eq, hparts.pieces_eq] at hs
    obtain ⟨p, hp, hne, rfl⟩ := mem_trimmed_iff.1 hs
    rw [hleft] at hempty
    rcases List.mem_append.1 hp with hp | hp
    · obtain ⟨sentence, hsentence, rfl⟩ := List.mem_map.1 hp
      rw [hwritten] at hempty hne
      exact hne (strip_eq_nil_iff.2 (hlone ended rest hparts sentence hsentence hempty))
    · -- what does not end has no mark at its end
      obtain rfl := List.mem_singleton.1 hp
      have hlast := List.getLast?_eq_some_getLast hne
      have hblank := not_isBlank_of_getLast?_strip hlast
      rcases isBare_strip_iff.2 hempty _ (List.getLast_mem hne) with hmark | hblank'
      · exact hparts.not_mem_marks_of_getLast?_strip hlast hmark
      · rw [hblank] at hblank'
        cases hblank'

end Sentence

open Sentence

/-! ## Where searches come from -/

/-- What was searched for, if a note is one of a search. -/
def Note.message? (n : Note) : Option (List String) :=
  match n.kind with
  | .search input => some input.message
  | _ => none

/-- Whether a sentence is of a kind, or one of a sub-request of which there is a note. -/
def AtHand (config : Config) (kind : String → Prop) (notes : List Note) (raw : String) : Prop :=
  kind raw ∨ ∃ n ∈ notes, ∃ text, n.kind = .subRequest text ∧
    raw ∈ config.splitSentences false text

/-- Whether all searches of which there are notes were made for sentences at hand. -/
def Sourced (config : Config) (kind : String → Prop) (notes : List Note) : Prop :=
  ∀ n ∈ notes, ∀ input, n.kind = .search input →
    ∃ raw, AtHand config kind notes raw ∧ input.message = words (config.normalize raw)

namespace Sourced

variable {config : Config} {kind kind' : String → Prop} {notes : List Note} {n : Note}

theorem nil : Sourced config kind [] := fun _ hn => nomatch hn

/-- One more note, if what was at hand stays at hand. -/
theorem concat (h : Sourced config kind notes)
    (hkind : ∀ raw, kind raw → AtHand config kind' (notes ++ [n]) raw)
    (hn : ∀ input, n.kind = .search input →
      ∃ raw, kind' raw ∧ input.message = words (config.normalize raw)) :
    Sourced config kind' (notes ++ [n]) := by
  intro m hm input hinput
  rcases List.mem_append.1 hm with hm | hm
  · obtain ⟨raw, hraw | ⟨request, hrequest, hsentence⟩, hmessage⟩ := h m hm input hinput
    · exact ⟨raw, hkind raw hraw, hmessage⟩
    · exact ⟨raw, Or.inr ⟨request, List.mem_append_left _ hrequest, hsentence⟩, hmessage⟩
  · rw [List.mem_singleton.1 hm] at hinput
    obtain ⟨raw, hraw, hmessage⟩ := hn input hinput
    exact ⟨raw, Or.inl hraw, hmessage⟩

/-- A search for a sentence of the kind. -/
theorem search (h : Sourced config kind notes) {raw : String} (hraw : kind raw) {input : Input}
    (hn : n.kind = .search input) (hmessage : input.message = words (config.normalize raw)) :
    Sourced config kind (notes ++ [n]) := by
  refine h.concat (fun _ => Or.inl) fun input' hinput => ?_
  obtain rfl := Note.Kind.search.inj (hn.symm.trans hinput)
  exact ⟨raw, hraw, hmessage⟩

/-- What an element of the host does is no search. -/
theorem element (h : Sourced config kind notes) (hn : n.kind = .element) :
    Sourced config kind (notes ++ [n]) := by
  refine h.concat (fun _ => Or.inl) fun input hinput => ?_
  rw [hn] at hinput
  cases hinput

/-- The note of a sub-request accounts for its sentences. -/
theorem request {text : String}
    (h : Sourced config (fun raw => kind raw ∨ raw ∈ config.splitSentences false text) notes)
    (hn : n.kind = .subRequest text) : Sourced config kind (notes ++ [n]) := by
  refine h.concat (fun raw hraw => hraw.imp_right fun hsentence => ?_) fun input hinput => ?_
  · exact ⟨n, List.mem_append_right _ List.mem_cons_self, text, hn, hsentence⟩
  · rw [hn] at hinput
    cases hinput

theorem mono (h : Sourced config kind notes) (hkind : ∀ raw, kind raw → kind' raw) :
    Sourced config kind' notes := by
  intro n hn input hinput
  obtain ⟨raw, hraw, hmessage⟩ := h n hn input hinput
  exact ⟨raw, hraw.imp_left (hkind raw), hmessage⟩

end Sourced

/-! ## Templates and scripts -/

/-- Whether answers to sub-requests keep it that way for the notes: their own sentences are
accounted for until they are noted themselves. -/
def RequestsSourced (config : Config) (ask : String → Noting World (Except Abort String)) : Prop :=
  ∀ (kind : String → Prop) text w before,
    Sourced config (fun raw => kind raw ∨ raw ∈ config.splitSentences false text) before →
    Sourced config (fun raw => kind raw ∨ raw ∈ config.splitSentences false text)
      ((ask text).run (w, before)).2.2

/-- The simulation for notes that are kept while a template is evaluated. -/
abbrev Simulation.sourcing (config : Config) (kind : String → Prop) :
    Simulation (ExceptT Abort (Noting Run)) (ExceptT Abort (Noting Run)) :=
  Simulation.preservation fun s : Run × List Note => Sourced config kind s.2

namespace Frame

variable {config : Config} {kind : String → Prop} {f : Frame}
  {ask : String → Noting World (Except Abort String)} {α : Type}

theorem sourcing_doing (x : Evaluation α) :
    (Simulation.sourcing config kind).rel (Noting.doing x) (Noting.doing x) :=
  fun _ h => h

theorem sourcing_element (x : Evaluation α) :
    (Simulation.sourcing config kind).rel (f.noteElement x) (f.noteElement x) :=
  fun _ h => h.element rfl

theorem sourcing_request (hask : RequestsSourced config ask) (text : String) :
    (Simulation.sourcing config kind).rel (f.noteRequest ask text) (f.noteRequest ask text) := by
  rintro ⟨r, before⟩ h
  show Sourced config kind ((ExceptT.run (f.noteRequest ask text)).run (r, before)).2.2
  rw [run_noteRequest]
  have hbefore := h.mono fun raw hraw =>
    (Or.inl hraw : kind raw ∨ raw ∈ config.splitSentences false text)
  split
  · exact hbefore.request rfl
  · exact (hask kind text _ before hbefore).request rfl

theorem sourcing_hostCommands (hask : RequestsSourced config ask) :
    (Simulation.sourcing config kind).RelHostCommands (f.noteHostCommands ask)
      (f.noteHostCommands ask) where
  abort _ := sourcing_element _
  look := sourcing_doing _
  beginRound _ := sourcing_element _
  request := sourcing_request hask
  assign _ _ _ := sourcing_doing _
  learn _ _ := sourcing_doing _
  wait _ := sourcing_doing _

theorem sourcing_commands (hask : RequestsSourced config ask) :
    (Simulation.sourcing config kind).RelCommands (f.noteCommands ask) (f.noteCommands ask) where
  star := rfl
  lookup _ _ := sourcing_doing _
  assign _ _ _ := sourcing_doing _
  request := sourcing_request hask

theorem sourcing_host (hask : RequestsSourced config ask) :
    (Simulation.sourcing config kind).RelHost (f.noteCommands ask) (f.noteCommands ask) := by
  intro element x y hcontent
  unfold noteCommands
  dsimp only
  cases f.bot.registry.get? element.name with
  | none => exact hcontent
  | some known => exact Simulation.script (sourcing_hostCommands hask) hcontent _

end Frame

/-! ## Sub-requests and sentences -/

namespace Bot

variable {bot : Bot} {kind : String → Prop} {depth deadline : Nat}

/-- The searches of a sub-request are made for its sentences if those for a sentence are made for
it. -/
theorem sourced_noteSubRequest {answer : String → Noting World Answer}
    (hanswer : ∀ (kind : String → Prop) raw w before, kind raw →
      Sourced bot.config kind before →
      Sourced bot.config kind ((answer raw).run (w, before)).2.2) :
    RequestsSourced bot.config (bot.noteSubRequest answer) := by
  intro kind text w before hbefore
  let S := Simulation.preservation fun s : World × List Note =>
    Sourced bot.config (fun raw => kind raw ∨ raw ∈ bot.config.splitSentences false text) s.2
  let sentence (raw : String) : ExceptT Abort (Noting World) String :=
    ExceptT.mk (Answer.result <$> answer raw)
  have hsentences : S.rel ((bot.config.splitSentences false text).mapM sentence)
      ((bot.config.splitSentences false text).mapM sentence) := by
    refine Simulation.mapM_of_mem fun raw hraw => ?_
    rintro ⟨v, notes⟩ hnotes
    exact hanswer _ raw v notes (Or.inr hraw) hnotes
  exact S.rel_bind hsentences (fun outputs => S.rel_pure (joinOutputs outputs)) (w, before) hbefore

/-- **Every search is made for a sentence at hand:** for the one that is answered, or for one of a
sub-request of which there is a note, at every depth. -/
theorem sourced_noteAnswer (kind : String → Prop) (depth deadline : Nat) (raw : String) (w : World)
    (before : List Note) (hraw : kind raw) (h : Sourced bot.config kind before) :
    Sourced bot.config kind ((bot.noteAnswer depth deadline raw).run (w, before)).2.2 := by
  -- induction on the levels that are left; a search that is not given up has one left
  induction hlevels : bot.config.recursionLimit + 1 - depth using Nat.strongRecOn
    generalizing kind depth raw w before with
  | _ levels ih =>
    subst hlevels
    have hmessage : (bot.inputAt (bot.config.normalize raw) w).message =
        words (bot.config.normalize raw) := by
      rw [inputAt_eq, Input.ofTexts]
    have hsearch : ∀ cause?, Sourced bot.config kind
        (before ++ [⟨depth, .search (bot.inputAt (bot.config.normalize raw) w), cause?⟩]) :=
      fun cause? => h.search hraw rfl hmessage
    show Sourced bot.config kind (bot.noteAnswer depth deadline raw (w, before)).2.2
    rw [noteAnswer]
    dsimp only
    split
    · exact hsearch _
    · exact hsearch _
    · next found hfound =>
      have hdepth := depth_le_of_searchAt hfound
      have hask : RequestsSourced bot.config
          (bot.noteSubRequest (bot.noteAnswer (depth + 1) deadline)) :=
        sourced_noteSubRequest fun kind raw v notes hraw hnotes =>
          ih _ (by omega) kind (depth + 1) raw v notes hraw hnotes rfl
      exact Simulation.interpretAll (Frame.sourcing_commands hask) found.entry.content
        (Or.inr (Frame.sourcing_host hask)) ({ world := _ }, _) (hsearch none)

/-- The searches for the sentences of a request. -/
theorem sourced_courses (bot : Bot) (sentences : List String) (w : World) :
    ∀ c ∈ bot.courses sentences w, Sourced bot.config (· = c.raw) c.notes := by
  induction sentences generalizing w with
  | nil => exact fun c hc => nomatch hc
  | cons raw rest ih =>
    rw [courses]
    refine List.forall_mem_cons.2 ⟨?_, ih _⟩
    exact sourced_noteAnswer _ 0 _ raw w [] rfl Sourced.nil

/-- The entries of a reply are those of its courses, each for what is left of its sentence. -/
theorem details_chat_eq (bot : Bot) (text : String) (w : World) :
    let courses := bot.courses (bot.config.splitSentences false text) (requested text w)
    ((bot.chat text).run w).1.details = courses.map (fun c => c.answer.details) ∧
      ∀ c ∈ courses, c.answer.details.input = bot.config.normalize c.raw := by
  obtain ⟨-, hanswers, -, hnoted⟩ :=
    bot.noted_courses (bot.config.splitSentences false text) (requested text w)
  change _ = ((bot.answersTo text).run (requested text w)).1 at hanswers
  refine ⟨?_, fun c hc => (hnoted c hc).settled.sentence⟩
  rw [fst_run_chat, ← hanswers, details_replyOf, List.map_map]
  rfl

/-- **A request leads to searches with words only,** if there are no substitutions and its sentences
of marks and blanks only are lone marks. Then none of its sentences is such a text, and each has
something left to be searched for. For the searches in sub-requests, the same has to be true of the
texts that are asked for. -/
theorem chat_searches_words (bot : Bot) (hnone : bot.config.substitutions.items = [])
    (text : String) (w : World) :
    let sentences := bot.config.splitSentences false text
    let courses := bot.courses sentences (requested text w)
    ((∀ s ∈ sentences, bot.config.normalize s ≠ "") ↔
        LoneMarks bot.config.marks text.toList) ∧
      courses.map Course.raw = sentences ∧
      ((bot.chat text).run w).1.details = courses.map (fun c => c.answer.details) ∧
      (∀ c ∈ courses, c.answer.details.input = bot.config.normalize c.raw) ∧
      (LoneMarks bot.config.marks text.toList →
        (∀ s ∈ sentences, ¬IsBare bot.config.marks s.toList) ∧
        ((∀ c ∈ courses, ∀ n ∈ c.notes, ∀ t, n.kind = .subRequest t →
            LoneMarks bot.config.marks t.toList) →
          ∀ c ∈ courses, ∀ n ∈ c.notes, ∀ input, n.kind = .search input →
            input.message ≠ [])) := by
  obtain ⟨hraws, -, -, -⟩ :=
    bot.noted_courses (bot.config.splitSentences false text) (requested text w)
  have hsourced :=
    bot.sourced_courses (bot.config.splitSentences false text) (requested text w)
  have hsplit : ∀ t, (∀ s ∈ bot.config.splitSentences false t, bot.config.normalize s ≠ "") ↔
      LoneMarks bot.config.marks t.toList := forall_normalize_ne_empty_iff hnone
  obtain ⟨hdetails, hinputs⟩ := bot.details_chat_eq text w
  refine ⟨hsplit text, hraws, hdetails, hinputs, fun hlone => ?_⟩
  have hleft := (hsplit text).2 hlone
  refine ⟨fun s hs => mt (normalize_eq_empty_iff hnone).2 (hleft s hs), ?_⟩
  intro hrequests c hc n hn input hinput
  -- the sentence that was searched for is the one of the course, or one of a sub-request
  obtain ⟨raw, hraw, hmessage⟩ := hsourced c hc n hn input hinput
  have hne : bot.config.normalize raw ≠ "" := by
    rcases hraw with rfl | ⟨m, hm, t, hrequest, hsentence⟩
    · exact hleft c.raw (hraws ▸ List.mem_map_of_mem hc)
    · exact (hsplit t).2 (hrequests c hc m hm t hrequest) raw hsentence
  rw [hmessage]
  exact words_normalize_ne_nil (String.isEmpty_eq_false_iff.2 hne)

theorem chat_searches_words_hello :
    Samples.bot.config.splitSentences false "hello. ! hi!" = ["hello", "hi"] ∧
      (Samples.bot.courses ["hello", "hi"] (requested "hello. ! hi!" Samples.talkative)).map
          (fun c => c.notes.map Note.depth) = [[0, 1, 1], [0]] ∧
      ∀ c ∈ Samples.bot.courses ["hello", "hi"] (requested "hello. ! hi!" Samples.talkative),
        ∀ n ∈ c.notes, ∀ input, n.kind = .search input → input.message ≠ [] := by
  have hnone : Samples.bot.config.substitutions.items = [] := rfl
  have hsplit : Samples.bot.config.splitSentences false "hello. ! hi!" = ["hello", "hi"] := by
    decide +kernel
  -- "hello" is answered by what "HI" is answered by, and nothing else is asked for
  have hrequests : ((Samples.bot.courses ["hello", "hi"]
      (requested "hello. ! hi!" Samples.talkative)).all fun c =>
        c.notes.all fun n => match n.kind with | .subRequest t => t == "HI" | _ => true) =
      true := by
    decide +kernel
  obtain ⟨hiff, -, -, -, hwords⟩ :=
    Samples.bot.chat_searches_words hnone "hello. ! hi!" Samples.talkative
  rw [hsplit] at hiff hwords
  refine ⟨hsplit, by decide +kernel, (hwords (hiff.1 (by decide +kernel))).2 ?_⟩
  intro c hc n hn t ht
  have hhi := List.all_eq_true.1 (List.all_eq_true.1 hrequests c hc) n hn
  rw [ht] at hhi
  rw [eq_of_beq hhi]
  exact (forall_normalize_ne_empty_iff hnone "HI").1 (by decide +kernel)

/-- Of three dots, the last one ends a sentence of the other two. Nothing is left of them, which is
searched for all the same, and the reply says that nothing was found. -/
theorem dots_searched_for :
    let w : World :=
      { knowledge := { graph := Samples.greeting, size := 1 }, reported := false
        user := .new Samples.bot.config "user", clock := 0, log := [] }
    Samples.bot.config.substitutions.items = [] ∧
      w.knowledge.graph.listing.map Prod.fst = ["HELLO <that> * <topic> *"] ∧
      Samples.bot.config.splitSentences false "hello. ..." = ["hello", ".."] ∧
      IsBare Samples.bot.config.marks "..".toList ∧ Samples.bot.config.normalize ".." = "" ∧
      (Samples.bot.courses ["hello", ".."] (requested "hello. ..." w)).map
          (fun c => c.notes.map Note.message?) = [[some ["hello"]], [some []]] ∧
      ((Samples.bot.chat "hello. ...").run w).1.text = "Hi! I have no answer for that." := by
  decide +kernel

end Bot

end Parley
