import Mathlib.Data.List.Forall2
import Parley.Chat

/-!
# Templates as programs over commands

A template does four things besides putting texts together: it looks values up, it keeps values, it
asks for answers, and it uses elements of the host. What these commands do can be left open. A
template is then a program in whatever monad the commands are given in, and its evaluation is one
case of this. The scripts of the host are programs of the same kind, over commands of their own.

Two interpretations of a template go side by side if their commands do. This is the one induction on
templates that comparisons of evaluations need: of two runs that start from different worlds, or of
a run with one that may not come to an end.

Main results:

* `Part.evaluateAll_eq_interpretAll` — evaluation is the interpretation by the commands of a frame;
* `Simulation.interpretAll` — interpretations of parts correspond if their commands do;
* `Simulation.script` — scripts correspond if their commands do, whatever the host has written;
* `Simulation.mapM` — doing something with every item of a list corresponds if each time does.
-/

namespace Parley

open Text

/-! ## Interpreting templates -/

/-- What a template can do in a monad. -/
structure Commands (m : Type → Type) where
  /-- The text that a wildcard or set of a segment has taken. -/
  star : Segment → Nat → String
  lookup : String → Scope → m String
  assign : String → String → Scope → m Unit
  /-- The answer to a text as a sub-request. -/
  request : String → m String
  /-- An element of the host, with what its content does. -/
  host : HostElement → m String → m String

section Interpret

variable {m : Type → Type} [Monad m]

mutual

/-- What a part does with the given commands. -/
def Part.interpret (c : Commands m) : Part → m String
  | .text s => return s
  | .star segment index => return c.star segment index
  | .srai content => do
    let text ← Part.interpretAll c content
    c.request (trim text)
  | .get name scope => c.lookup name scope
  | .set name scope content => do
    let value := trim (← Part.interpretAll c content)
    c.assign name value scope
    return value
  | .think content => do
    let _ ← Part.interpretAll c content
    return ""
  | .extension name attributes content =>
    c.host { name, attributes, content } (Part.interpretAll c content)

/-- What a sequence of parts does with the given commands. -/
def Part.interpretAll (c : Commands m) : List Part → m String
  | [] => return ""
  | part :: rest => do
    let first ← part.interpret c
    let others ← Part.interpretAll c rest
    return first ++ others

end

end Interpret

/-- What templates can do in a frame. -/
def Frame.commands (f : Frame) (answer : Answerer) : Commands Evaluation where
  star := f.star
  lookup := f.lookup
  assign := f.assign
  request := f.request answer
  host element content :=
    match f.bot.registry.get? element.name with
    | some known => (known.script element).run f answer content
    | none => content

mutual

theorem Part.evaluate_eq_interpret (f : Frame) (answer : Answerer) (part : Part) :
    part.evaluate f answer = part.interpret (f.commands answer) := by
  cases part with
  | text s => rfl
  | star segment index => rfl
  | srai content =>
    rw [Part.evaluate, Part.interpret, Part.evaluateAll_eq_interpretAll f answer content]
    rfl
  | get name scope => rfl
  | set name scope content =>
    rw [Part.evaluate, Part.interpret, Part.evaluateAll_eq_interpretAll f answer content]
    rfl
  | think content =>
    rw [Part.evaluate, Part.interpret, Part.evaluateAll_eq_interpretAll f answer content]
  | extension name attributes content =>
    rw [Part.evaluate, Part.interpret, Part.evaluateAll_eq_interpretAll f answer content]
    rfl

/-- To evaluate parts in a frame is to interpret them by the commands of the frame. -/
theorem Part.evaluateAll_eq_interpretAll (f : Frame) (answer : Answerer) (parts : List Part) :
    Part.evaluateAll f answer parts = Part.interpretAll (f.commands answer) parts := by
  cases parts with
  | nil => rfl
  | cons part rest =>
    rw [Part.evaluateAll, Part.interpretAll, Part.evaluate_eq_interpret f answer part,
      Part.evaluateAll_eq_interpretAll f answer rest]

end

/-! ## Interpreting scripts -/

/-- What an element of the host can do in a monad. -/
structure HostCommands (m : Type → Type) where
  abort : Abort → m String
  look : m View
  beginRound : Nat → m Unit
  request : String → m String
  assign : String → String → Scope → m Unit
  learn : Learner → CategoryMarkup → m (Except Markup.Fault (Option Template))
  wait : Nat → m Unit

/-- What a script does with the given commands. -/
def Script.interpret {m : Type → Type} [Monad m] (c : HostCommands m) (content : m String) :
    Script → m String
  | .done text => return text
  | .abort cause => c.abort cause
  | .content next => do (next (← content)).interpret c content
  | .look next => do (next (← c.look)).interpret c content
  | .loop round next => do
    c.beginRound round
    next.interpret c content
  | .request text next => do (next (← c.request text)).interpret c content
  | .assign name scope value next => do
    c.assign name value scope
    next.interpret c content
  | .learn learner markup next => do
    (next (← c.learn learner markup)).interpret c content
  | .wait time next => do
    c.wait time
    next.interpret c content

/-- What elements of the host can do in a frame. -/
def Frame.hostCommands (f : Frame) (answer : Answerer) : HostCommands Evaluation where
  abort cause := throw cause
  look := do return f.view (← get)
  beginRound := f.checkLoop
  request := f.request answer
  assign := f.assign
  learn := f.learn
  wait time :=
    modify fun r => { r with world := { r.world with clock := r.world.clock + time } }

/-- To run a script in a frame is to interpret it by the commands of the frame. -/
theorem Script.run_eq_interpret (f : Frame) (answer : Answerer) (content : Evaluation String)
    (script : Script) :
    script.run f answer content = script.interpret (f.hostCommands answer) content := by
  induction script with
  | done text => rfl
  | abort cause => rfl
  | content next ih => exact congrArg (content >>= ·) (funext ih)
  | look next ih =>
    show (get >>= fun r => (next (f.view r)).run f answer content) = (_ >>= pure ∘ f.view) >>= _
    rw [bind_assoc]
    exact congrArg (get >>= ·) (funext fun r => ih (f.view r))
  | loop round next ih => exact congrArg (fun x => f.checkLoop round >>= fun _ => x) ih
  | request text next ih => exact congrArg (f.request answer text >>= ·) (funext ih)
  | assign name scope value next ih =>
    exact congrArg (fun x => f.assign name value scope >>= fun _ => x) ih
  | learn learner markup next ih =>
    exact congrArg (f.learn learner markup >>= ·) (funext ih)
  | wait time next ih =>
    exact congrArg (fun x => (f.hostCommands answer).wait time >>= fun _ => x) ih

/-! ## Templates without elements of the host -/

mutual

/-- Whether a part does not use elements of the host. -/
def Part.isBuiltIn : Part → Bool
  | .text _ => true
  | .star _ _ => true
  | .srai content => Part.areBuiltIn content
  | .get _ _ => true
  | .set _ _ content => Part.areBuiltIn content
  | .think content => Part.areBuiltIn content
  | .extension _ _ _ => false

/-- Whether no part of a sequence uses elements of the host. -/
def Part.areBuiltIn : List Part → Bool
  | [] => true
  | part :: rest => part.isBuiltIn && Part.areBuiltIn rest

end

/-- Whether a template does not use elements of the host. -/
def Template.IsBuiltIn (t : Template) : Prop := Part.areBuiltIn t.content = true

instance (t : Template) : Decidable t.IsBuiltIn := inferInstanceAs (Decidable (_ = true))

/-! ## Simulations -/

/-- A way in which computations of two monads with the same results can correspond to each other,
step by step. -/
structure Simulation (m n : Type → Type) [Monad m] [Monad n] where
  rel : {α : Type} → m α → n α → Prop
  rel_pure : {α : Type} → (a : α) → rel (pure a : m α) (pure a : n α)
  rel_bind : {α β : Type} → {x : m α} → {y : n α} → {f : α → m β} → {g : α → n β} → rel x y →
    (∀ a, rel (f a) (g a)) → rel (x >>= f) (y >>= g)

namespace Simulation

variable {m n : Type → Type} [Monad m] [Monad n] (S : Simulation m n)

/-- What is given up on one side is given up on the other. -/
def exceptT : Simulation (ExceptT Abort m) (ExceptT Abort n) where
  rel x y := S.rel (ExceptT.run x) (ExceptT.run y)
  rel_pure a := S.rel_pure (Except.ok a)
  rel_bind := by
    intro α β x y f g hxy hfg
    refine S.rel_bind hxy fun result => ?_
    cases result with
    | ok a => exact hfg a
    | error cause => exact S.rel_pure (Except.error cause)

/-- Whether the commands of two interpretations correspond to each other, apart from those for
elements of the host. -/
structure RelCommands (c : Commands m) (d : Commands n) : Prop where
  star : c.star = d.star
  lookup : ∀ name scope, S.rel (c.lookup name scope) (d.lookup name scope)
  assign : ∀ name value scope, S.rel (c.assign name value scope) (d.assign name value scope)
  request : ∀ text, S.rel (c.request text) (d.request text)

/-- Whether what elements of the host can do corresponds to each other. -/
structure RelHostCommands (c : HostCommands m) (d : HostCommands n) : Prop where
  abort : ∀ cause, S.rel (c.abort cause) (d.abort cause)
  look : S.rel c.look d.look
  beginRound : ∀ round, S.rel (c.beginRound round) (d.beginRound round)
  request : ∀ text, S.rel (c.request text) (d.request text)
  assign : ∀ name value scope, S.rel (c.assign name value scope) (d.assign name value scope)
  learn : ∀ learner markup,
    S.rel (c.learn learner markup) (d.learn learner markup)
  wait : ∀ time, S.rel (c.wait time) (d.wait time)

/-- Whether elements of the host correspond to each other if their contents do. -/
def RelHost (c : Commands m) (d : Commands n) : Prop :=
  ∀ element x y, S.rel x y → S.rel (c.host element x) (d.host element y)

variable {S} {c : Commands m} {d : Commands n}

mutual

theorem interpret (h : S.RelCommands c d) (part : Part)
    (hpart : part.isBuiltIn = true ∨ S.RelHost c d) :
    S.rel (part.interpret c) (part.interpret d) := by
  cases part with
  | text s => exact S.rel_pure s
  | star segment index =>
    rw [Part.interpret, Part.interpret, h.star]
    exact S.rel_pure _
  | srai content => exact S.rel_bind (interpretAll h content hpart) fun _ => h.request _
  | get name scope => exact h.lookup name scope
  | set name scope content =>
    refine S.rel_bind (interpretAll h content hpart) fun _ => ?_
    exact S.rel_bind (h.assign name _ scope) fun _ => S.rel_pure _
  | think content => exact S.rel_bind (interpretAll h content hpart) fun _ => S.rel_pure ""
  | extension name attributes content =>
    rcases hpart with hbuiltIn | hhost
    · cases hbuiltIn
    · exact hhost _ _ _ (interpretAll h content (Or.inr hhost))

/-- Interpretations of parts correspond to each other if their commands do. Elements of the host
must do so too, unless all parts are built in. -/
theorem interpretAll (h : S.RelCommands c d) (parts : List Part)
    (hparts : Part.areBuiltIn parts = true ∨ S.RelHost c d) :
    S.rel (Part.interpretAll c parts) (Part.interpretAll d parts) := by
  cases parts with
  | nil => exact S.rel_pure ""
  | cons part rest =>
    rw [Part.areBuiltIn, Bool.and_eq_true] at hparts
    refine S.rel_bind (interpret h part (hparts.imp_left And.left)) fun _ => ?_
    exact S.rel_bind (interpretAll h rest (hparts.imp_left And.right)) fun _ => S.rel_pure _

end

/-- Interpretations of a script correspond to each other if its commands and the content of its
element do. -/
theorem script {c : HostCommands m} {d : HostCommands n} (h : S.RelHostCommands c d)
    {x : m String} {y : n String} (hcontent : S.rel x y) (script : Script) :
    S.rel (script.interpret c x) (script.interpret d y) := by
  induction script with
  | done text => exact S.rel_pure text
  | abort cause => exact h.abort cause
  | content next ih => exact S.rel_bind hcontent ih
  | look next ih => exact S.rel_bind h.look ih
  | loop round next ih => exact S.rel_bind (h.beginRound round) fun _ => ih
  | request text next ih => exact S.rel_bind (h.request text) ih
  | assign name scope value next ih => exact S.rel_bind (h.assign name value scope) fun _ => ih
  | learn learner markup next ih =>
    exact S.rel_bind (h.learn learner markup) ih
  | wait time next ih => exact S.rel_bind (h.wait time) fun _ => ih

/-- Doing something with every item of a list corresponds if it does for each of them. -/
theorem mapM_of_mem [LawfulMonad m] [LawfulMonad n] {α β : Type} {f : α → m β} {g : α → n β}
    {l : List α} (h : ∀ a ∈ l, S.rel (f a) (g a)) : S.rel (l.mapM f) (l.mapM g) := by
  induction l with
  | nil =>
    rw [List.mapM_nil, List.mapM_nil]
    exact S.rel_pure []
  | cons a rest ih =>
    obtain ⟨hfirst, hrest⟩ := List.forall_mem_cons.1 h
    rw [List.mapM_cons, List.mapM_cons]
    exact S.rel_bind hfirst fun b => S.rel_bind (ih hrest) fun bs => S.rel_pure (b :: bs)

/-- Doing something with every item of a list corresponds if it does each time. -/
theorem mapM [LawfulMonad m] [LawfulMonad n] {α β : Type} {f : α → m β} {g : α → n β}
    (h : ∀ a, S.rel (f a) (g a)) (l : List α) : S.rel (l.mapM f) (l.mapM g) :=
  mapM_of_mem fun a _ => h a

end Simulation

/-! ## Running one thing after the other -/

theorem run_bind_state {σ α β : Type} (x : StateM σ α) (f : α → StateM σ β) (s : σ) :
    (x >>= f).run s = (f (x.run s).1).run (x.run s).2 := rfl

theorem run_get_bind {σ α : Type} (f : σ → StateM σ α) (s : σ) :
    (get >>= f).run s = (f s).run s := rfl

theorem run_mapM_cons {σ α β : Type} (f : α → StateM σ β) (a : α) (rest : List α) (s : σ) :
    ((a :: rest).mapM f).run s =
      (((f a).run s).1 :: ((rest.mapM f).run ((f a).run s).2).1,
        ((rest.mapM f).run ((f a).run s).2).2) := by
  rw [List.mapM_cons]
  rfl

/-- What is preserved each time is preserved by doing something with every item of a list. -/
theorem preserves_run_mapM {σ α β : Type} {I : σ → Prop} {f : α → StateM σ β}
    (h : ∀ a s, I s → I ((f a).run s).2) (l : List α) {s : σ} (hs : I s) :
    I ((l.mapM f).run s).2 := by
  induction l generalizing s with
  | nil => exact hs
  | cons a rest ih =>
    rw [run_mapM_cons]
    exact ih (h a s hs)

/-- Two runs through lists whose items are related give related results and lead to related states
if they do so each time. -/
theorem forall₂_run_mapM {σ τ α β γ δ : Type} {R : σ → τ → Prop} {P : α → β → Prop}
    {Q : γ → δ → Prop} {f : α → StateM σ γ} {g : β → StateM τ δ}
    (h : ∀ a b s t, P a b → R s t →
      Q ((f a).run s).1 ((g b).run t).1 ∧ R ((f a).run s).2 ((g b).run t).2)
    {l : List α} {l' : List β} (hl : List.Forall₂ P l l') {s : σ} {t : τ} (hst : R s t) :
    List.Forall₂ Q ((l.mapM f).run s).1 ((l'.mapM g).run t).1 ∧
      R ((l.mapM f).run s).2 ((l'.mapM g).run t).2 := by
  induction hl generalizing s t with
  | nil => exact ⟨.nil, hst⟩
  | @cons a b l l' hab hl ih =>
    obtain ⟨hfirst, hstates⟩ := h a b s t hab hst
    obtain ⟨hrest, hlast⟩ := ih hstates
    rw [run_mapM_cons, run_mapM_cons]
    exact ⟨.cons hfirst hrest, hlast⟩

/-- What comes second is left out if what comes first is given up. -/
theorem run_bind_eq {ε σ α β : Type} (x : ExceptT ε (StateM σ) α) (f : α → ExceptT ε (StateM σ) β)
    (s : σ) :
    (ExceptT.run (x >>= f)).run s =
      match (ExceptT.run x).run s with
      | (.ok a, s') => (ExceptT.run (f a)).run s'
      | (.error cause, s') => (.error cause, s') := by
  rw [ExceptT.run_bind, run_bind_state]
  -- the case that the instance makes of the first result is the one that is made here
  obtain ⟨result, s'⟩ := (ExceptT.run x).run s
  cases result <;> rfl

end Parley
