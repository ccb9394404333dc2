import Mathlib.Logic.Function.Basic
import Parley.Proofs.Talk.Keeping

/-!
# Users that do not influence each other

All users share the graph of the bot, the log, and the time. With built-in templates only, none of
what one user leaves behind in these reaches another: a request depends on the graphs and on its own
user alone, and it leaves the graphs alone. However the requests of several users are mixed, each of
them therefore gets the replies that the same requests would get if nobody else were there, and is
left in the same state.

The sets and the elements of the host belong to the bot, which no request can change.

Main results:

* `Bot.chat_eq_of_user_eq` — a request depends on the graphs and on its user;
* `Bot.converse_separates` — mixed requests, seen by one of the users.
-/

namespace Parley

/-! ## One request -/

namespace Bot

variable {bot : Bot}

/-- The same request of the same user has the same reply and leaves the user in the same state, in
whatever time and whatever has been reported. -/
theorem chat_eq_of_user_eq {w w' : World} (hknowledge : w'.knowledge = w.knowledge)
    (huser : w'.user = w.user) (hbuiltIn : w.BuiltIn) (text : String) :
    ((bot.chat text).run w').1 = ((bot.chat text).run w).1 ∧
      ((bot.chat text).run w').2.user = ((bot.chat text).run w).2.user := by
  have hrequested : (requested text w').user = (requested text w).user := by
    rw [requested, requested, huser]
  have halike : (requested text w).Alike w.clock w'.clock (requested text w') :=
    { knowledge := hknowledge
      graph := congrArg User.graph hrequested
      that := congrArg User.that hrequested
      predicates := congrArg User.predicates hrequested
      clock_left := rfl
      clock_right := rfl
      builtIn := hbuiltIn }
  -- the answers are the same, sentence by sentence
  have hone : ∀ raw raw' u u', raw = raw' → u.Alike w.clock w'.clock u' →
      ((bot.answerTop raw).run u).1 = ((bot.answerTop raw').run u').1 ∧
        ((bot.answerTop raw).run u).2.Alike w.clock w'.clock ((bot.answerTop raw').run u').2 := by
    rintro raw _ u u' rfl hu
    have hagree := @agree_answerTop bot bot.config.recursionLimit 0
      (u.clock + bot.config.timeout) w.clock w'.clock False (by omega) (Or.inr (by omega))
      (by rw [hu.clock_left]; omega) raw u u' hu
    exact hagree.resolve_left fun hfalse => hfalse.1
  have hsentences := List.forall₂_same.2
    fun (raw : String) (_ : raw ∈ bot.config.splitSentences false text) => Eq.refl raw
  obtain ⟨hanswers, hworlds⟩ := forall₂_run_mapM hone hsentences halike
  rw [List.forall₂_eq_eq_eq] at hanswers
  have hreply : ((bot.chat text).run w').1 = ((bot.chat text).run w).1 := by
    rw [fst_run_chat, fst_run_chat]
    exact congrArg bot.replyOf hanswers.symm
  refine ⟨hreply, ?_⟩
  rw [user_snd_run_chat, user_snd_run_chat, hreply]
  -- sentences change only the predicates and the graph of a user, which are the same afterwards
  refine congrArg (fun user : User => user.addReply bot.config _) ?_
  rw [(evolves_answersTo text _).user_eq, (evolves_answersTo text (requested text w)).user_eq,
    hrequested]
  exact congrArg₂ (fun predicates graph =>
    { (requested text w).user with predicates, graph }) hworlds.predicates hworlds.graph

end Bot

/-! ## Several users -/

/-- What changes while a bot talks with several users: what there is once, and the users. -/
structure Company (ι : Type) where
  knowledge : Knowledge
  reported : Bool
  clock : Nat
  log : List Event
  users : ι → User

/-- A request of one of the users, and the time that passes before it. -/
structure Call (ι : Type) where
  user : ι
  wait : Nat := 0
  text : String

section Company

variable {ι : Type}

namespace Company

/-- The world in which the bot talks with one of the users. -/
def world (c : Company ι) (i : ι) : World :=
  { knowledge := c.knowledge, reported := c.reported, user := c.users i, clock := c.clock
    log := c.log }

/-- A company after some time. -/
def pass (c : Company ι) (time : Nat) : Company ι := { c with clock := c.clock + time }

/-- Whether no template that any of the users can reach uses elements of the host. -/
def BuiltIn (c : Company ι) : Prop := ∀ i, (c.world i).BuiltIn

/-- Whether a company has the graphs of an earlier one. -/
structure Kept (c d : Company ι) : Prop where
  knowledge : d.knowledge = c.knowledge
  graph : ∀ j, (d.users j).graph = (c.users j).graph

theorem Kept.trans {c d e : Company ι} (h : c.Kept d) (h' : d.Kept e) : c.Kept e :=
  ⟨h'.knowledge.trans h.knowledge, fun j => (h'.graph j).trans (h.graph j)⟩

/-- Whether templates are built in is decided by the graphs. -/
theorem builtIn_world {c d : Company ι} {i : ι} (hc : (c.world i).BuiltIn)
    (hknowledge : d.knowledge = c.knowledge) (hgraph : (d.users i).graph = (c.users i).graph) :
    (d.world i).BuiltIn := by
  intro t ht
  rw [world, hknowledge, hgraph] at ht
  exact hc t ht

theorem Kept.builtIn {c d : Company ι} (h : c.Kept d) (hc : c.BuiltIn) : d.BuiltIn := fun j =>
  builtIn_world (hc j) h.knowledge (h.graph j)

variable [DecidableEq ι]

/-- A company after the bot has talked with one of the users, in whose world it has left `w`. -/
def leave (c : Company ι) (i : ι) (w : World) : Company ι :=
  { knowledge := w.knowledge, reported := w.reported, clock := w.clock, log := w.log
    users := Function.update c.users i w.user }

/-- Talking with one of the users leaves the graphs of all of them alone if it leaves those alone
that this user can reach. -/
theorem kept_leave {c : Company ι} {i : ι} {w : World} (h : (c.world i).Kept w) :
    c.Kept (c.leave i w) := by
  refine ⟨h.knowledge, ?_⟩
  intro j
  show (Function.update c.users i w.user j).graph = (c.users j).graph
  rw [Function.update_apply]
  split
  · next hj => rw [hj, h.graph, world]
  · rfl

end Company

variable [DecidableEq ι]

/-- Answers a request of one of the users. The reply is for this user. -/
def Bot.answerCall (bot : Bot) (call : Call ι) : StateM (Company ι) (ι × Reply) := do
  let c := (← get).pass call.wait
  let (reply, w) := (bot.chat call.text).run (c.world call.user)
  set (c.leave call.user w)
  return (call.user, reply)

/-- Answers requests of several users in the order in which they come. -/
def Bot.converse (bot : Bot) (calls : List (Call ι)) : StateM (Company ι) (List (ι × Reply)) :=
  calls.mapM bot.answerCall

namespace Bot

variable {bot : Bot} {c d : Company ι}

theorem run_answerCall (bot : Bot) (call : Call ι) (c : Company ι) :
    (bot.answerCall call).run c =
      let chatted := (bot.chat call.text).run ((c.pass call.wait).world call.user)
      ((call.user, chatted.1), (c.pass call.wait).leave call.user chatted.2) := by
  rw [answerCall]
  generalize bot.chat call.text = session
  rfl

theorem fst_answerCall (bot : Bot) (call : Call ι) (c : Company ι) :
    ((bot.answerCall call).run c).1.1 = call.user := by
  rw [run_answerCall]

theorem run_converse_cons (bot : Bot) (call : Call ι) (rest : List (Call ι)) (c : Company ι) :
    (bot.converse (call :: rest)).run c =
      let first := (bot.answerCall call).run c
      let others := (bot.converse rest).run first.2
      (first.1 :: others.1, others.2) :=
  run_mapM_cons ..

/-- A request of one of the users leaves the graphs of all of them alone. -/
theorem kept_answerCall {call : Call ι} (hbuiltIn : (c.world call.user).BuiltIn) :
    c.Kept ((bot.answerCall call).run c).2 := by
  have hpass : c.Kept (c.pass call.wait) := ⟨rfl, fun _ => rfl⟩
  have hchat := @kept_chat bot ((c.pass call.wait).world call.user) hbuiltIn call.text
  rw [run_answerCall]
  generalize (bot.chat call.text).run ((c.pass call.wait).world call.user) = chatted at hchat ⊢
  exact hpass.trans (Company.kept_leave hchat)

/-- Requests leave the graphs of all users alone. -/
theorem kept_converse (hbuiltIn : c.BuiltIn) (calls : List (Call ι)) :
    c.Kept ((bot.converse calls).run c).2 := by
  refine preserves_run_mapM (fun call d hd => ?_) calls ⟨rfl, fun _ => rfl⟩
  exact hd.trans (kept_answerCall (hd.builtIn hbuiltIn call.user))

/-- A request of one of the users leaves the other users as they are. -/
theorem users_answerCall_of_ne {call : Call ι} {i : ι} (hne : call.user ≠ i) (c : Company ι) :
    ((bot.answerCall call).run c).2.users i = c.users i := by
  rw [run_answerCall]
  exact Function.update_of_ne (Ne.symm hne) _ _

/-- Two companies with the same graph of all users and one user in common give this user the same
reply to the same request, and leave this user in the same state. -/
theorem answerCall_eq_of_user_eq {call : Call ι} (hknowledge : d.knowledge = c.knowledge)
    (huser : d.users call.user = c.users call.user) (hbuiltIn : (c.world call.user).BuiltIn) :
    ((bot.answerCall call).run d).1 = ((bot.answerCall call).run c).1 ∧
      ((bot.answerCall call).run d).2.users call.user =
        ((bot.answerCall call).run c).2.users call.user := by
  have hchat := @chat_eq_of_user_eq bot ((c.pass call.wait).world call.user)
    ((d.pass call.wait).world call.user) hknowledge huser hbuiltIn call.text
  rw [run_answerCall, run_answerCall]
  generalize (bot.chat call.text).run ((c.pass call.wait).world call.user) = chatted at hchat ⊢
  generalize (bot.chat call.text).run ((d.pass call.wait).world call.user) = chatted' at hchat ⊢
  refine ⟨congrArg (Prod.mk call.user) hchat.1, ?_⟩
  show Function.update d.users _ chatted'.2.user _ = Function.update c.users _ chatted.2.user _
  rw [Function.update_self, Function.update_self, hchat.2]

/-- What one of the users gets out of mixed requests is what the requests of this user get in a
company where nobody else asks. -/
theorem converse_eq_of_user_eq (i : ι) (calls : List (Call ι))
    (hknowledge : d.knowledge = c.knowledge) (huser : d.users i = c.users i)
    (hbuiltIn : c.BuiltIn) :
    ((bot.converse calls).run c).1.filter (fun reply => reply.1 = i) =
        ((bot.converse (calls.filter fun call => call.user = i)).run d).1 ∧
      ((bot.converse calls).run c).2.users i =
        ((bot.converse (calls.filter fun call => call.user = i)).run d).2.users i := by
  -- induction on the requests; those of others are made on one side only
  induction calls generalizing c d with
  | nil => exact ⟨rfl, huser.symm⟩
  | cons call rest ih =>
    have hkept := @kept_answerCall _ _ bot c call (hbuiltIn call.user)
    have hfirst := fst_answerCall bot call c
    rw [run_converse_cons]
    dsimp only
    by_cases hcall : call.user = i
    · -- a request of this user, which is made on both sides
      subst hcall
      have hbuiltIn' : (d.world call.user).BuiltIn :=
        Company.builtIn_world (hbuiltIn call.user) hknowledge (congrArg User.graph huser)
      have hkept' := @kept_answerCall _ _ bot d call hbuiltIn'
      obtain ⟨hreply, huser'⟩ :=
        @answerCall_eq_of_user_eq _ _ bot c d call hknowledge huser (hbuiltIn call.user)
      have hcalls : (call :: rest).filter (fun other => other.user = call.user) =
          call :: rest.filter (fun other => other.user = call.user) :=
        List.filter_cons_of_pos (decide_eq_true rfl)
      rw [hcalls, run_converse_cons, List.filter_cons, if_pos (decide_eq_true hfirst)]
      dsimp only
      generalize (bot.answerCall call).run c = first at hkept hfirst hreply huser' ⊢
      generalize (bot.answerCall call).run d = first' at hkept' hreply huser' ⊢
      have hknowledge' : first'.2.knowledge = first.2.knowledge := by
        rw [hkept'.knowledge, hkept.knowledge, hknowledge]
      obtain ⟨hreplies, hlast⟩ := ih hknowledge' huser' (hkept.builtIn hbuiltIn)
      refine ⟨?_, hlast⟩
      rw [hreplies, hreply]
    · -- a request of another user, which leaves this one alone
      have hother := @users_answerCall_of_ne _ _ bot call i hcall c
      have hcalls : (call :: rest).filter (fun other => other.user = i) =
          rest.filter (fun other => other.user = i) :=
        List.filter_cons_of_neg (by simpa using hcall)
      generalize (bot.answerCall call).run c = first at hkept hfirst hother ⊢
      rw [hcalls, List.filter_cons, if_neg (by simpa [hfirst] using hcall)]
      exact ih (hknowledge.trans hkept.knowledge.symm) (huser.trans hother.symm)
        (hkept.builtIn hbuiltIn)

/-- **Users do not influence each other.** The replies that a user gets out of mixed requests are
those that the requests of this user get without the others, in the same order, and the user is left
in the same state: the predicates, what was said last, the histories and the user's own graph.
Whatever the requests come to, the graph of all users, the number of its categories and the own
graphs of all users stay as they are. -/
theorem converse_separates (hbuiltIn : c.BuiltIn) (calls : List (Call ι)) :
    (∀ i,
      ((bot.converse calls).run c).1.filter (fun reply => reply.1 = i) =
          ((bot.converse (calls.filter fun call => call.user = i)).run c).1 ∧
        ((bot.converse calls).run c).2.users i =
          ((bot.converse (calls.filter fun call => call.user = i)).run c).2.users i) ∧
      ((bot.converse calls).run c).2.knowledge = c.knowledge ∧
      ∀ j, (((bot.converse calls).run c).2.users j).graph = (c.users j).graph := by
  have hkept := @kept_converse _ _ bot c hbuiltIn calls
  exact ⟨fun i => converse_eq_of_user_eq i calls rfl rfl hbuiltIn, hkept.knowledge, hkept.graph⟩

end Bot

end Company

namespace Samples

/-- Two new users of a bot with three categories. -/
def company : Company (Fin 2) :=
  { knowledge := talkative.knowledge, reported := false, clock := 0, log := []
    users := fun i => .new bot.config (if i = 0 then "Ann" else "Bea") }

theorem builtIn_company : company.BuiltIn := fun i =>
  @World.builtIn_of_insertAll (company.world i) .ignoreCase .ignoreCase [] categories rfl rfl
    (by decide)

end Samples

/-- One user is greeted, and the bot loses itself in a talk with the other. -/
theorem Bot.converse_separates_hello :
    let calls : List (Call (Fin 2)) :=
      [{ user := 0, text := "hello" }, { user := 1, wait := 5, text := "loop" },
        { user := 0, text := "hi" }]
    let bot := Samples.bot.withLimit 2
    let together := (bot.converse calls).run Samples.company
    let alone := (bot.converse (calls.filter fun call => call.user = 0)).run Samples.company
    together.1.map (fun reply => reply.2.text) =
        ["Hi! there", "Too much recursion in AIML.", "Hi!"] ∧
      together.1.filter (fun reply => reply.1 = 0) = alone.1 ∧
      together.2.users 0 = alone.2.users 0 :=
  ⟨by decide +kernel, (Bot.converse_separates Samples.builtIn_company _).1 0⟩

end Parley
