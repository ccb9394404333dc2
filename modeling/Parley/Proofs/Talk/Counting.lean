import Mathlib.Data.Finset.Card
import Parley.Proofs.Talk.Lasting
import Parley.Proofs.Walking

/-!
# The number of categories

The bot counts its categories beside the graph that holds them. The count is right whatever is done:
however categories come to the graph of all users, whether they are new or there under some spelling
of their paths, and whatever is learned while requests are answered. It is the number of entries of
the graph, of the entries that a walk hands out, and of the different paths that were ever added.

What a request adds is found in what it reports: for each category that the graph of all users is to
learn, there is one report with its path, in the same order.

Main results:

* `Graph.size_insertAll` — a graph has as many entries as there are different paths;
* `Knowledge.addAll_eq` — and the count beside it says so;
* `Bot.exists_gained_chat` — what a request adds is what it reports;
* `Bot.size_counts_paths` — the count is right after everything that can be done.
-/

namespace Parley

/-! ## Different paths -/

/-- What tells a path from the paths that are not the same: the kinds of its tokens and their
keys. -/
def pathKey (cmp : Comparer) (path : List Token) : List (Bool × String) :=
  path.map fun t => (t.isSet, cmp.key t.text)

theorem pathKey_eq_iff {cmp : Comparer} {p q : List Token} :
    pathKey cmp p = pathKey cmp q ↔ samePath cmp p q = true :=
  samePath_iff_map_eq.symm

/-- The number of different paths among some. -/
def countDistinct (cmp : Comparer) (paths : List (List Token)) : Nat :=
  (paths.map (pathKey cmp)).toFinset.card

variable {α : Type} {cmp : Comparer}

/-- One more path counts if it is not the same as one of the others. -/
theorem countDistinct_concat (paths : List (List Token)) (p : List Token) :
    countDistinct cmp (paths ++ [p]) =
      countDistinct cmp paths + if ∃ q ∈ paths, samePath cmp q p = true then 0 else 1 := by
  have hmem : pathKey cmp p ∈ (paths.map (pathKey cmp)).toFinset ↔
      ∃ q ∈ paths, samePath cmp q p = true := by
    rw [List.mem_toFinset, List.mem_map]
    simp only [pathKey_eq_iff]
  -- paths count once for each key, so that one more path inserts one more key
  have hinsert : ((paths ++ [p]).map (pathKey cmp)).toFinset =
      insert (pathKey cmp p) (paths.map (pathKey cmp)).toFinset := by
    rw [List.map_append, List.toFinset_append, Finset.union_comm]
    rfl
  rw [countDistinct, hinsert, Finset.card_insert_eq_ite]
  by_cases h : ∃ q ∈ paths, samePath cmp q p = true
  · rw [if_pos (hmem.2 h), if_pos h]
    rfl
  · rw [if_neg (hmem.not.2 h), if_neg h]
    rfl

namespace Graph

/-- A path has an entry if one was added under some spelling of it. -/
theorem get?_insertAll_eq_none_iff {entries : List (List Token × α)} {p : List Token} :
    (insertAll cmp entries).get? p = none ↔
      ¬ ∃ q ∈ entries.map Prod.fst, samePath cmp q p = true := by
  rw [get?_insertAll, Option.map_eq_none_iff, List.find?_eq_none]
  constructor
  · rintro h ⟨q, hq, hsame⟩
    obtain ⟨entry, hentry, rfl⟩ := List.mem_map.1 hq
    exact h entry hentry hsame
  · intro h entry hentry hsame
    exact h ⟨entry.1, List.mem_map_of_mem hentry, hsame⟩

/-- **A graph has as many entries as there are different paths** among those that were added. -/
theorem size_insertAll (entries : List (List Token × α)) :
    (insertAll cmp entries).size = countDistinct cmp (entries.map Prod.fst) := by
  have hkeyed : (insertAll cmp entries).root.WellKeyed cmp := (builtUnder_insertAll _).wellKeyed
  -- the entries are under different paths, and these are the paths that were added
  let keys := (insertAll cmp entries).root.preorder.map fun entry => pathKey cmp entry.1
  have hnodup : keys.Nodup := by
    refine List.pairwise_map.2 (hkeyed.pairwise_preorder.imp fun hdiffers heq => ?_)
    rw [pathKey_eq_iff.1 heq] at hdiffers
    cases hdiffers
  have hsame : keys.toFinset = ((entries.map Prod.fst).map (pathKey cmp)).toFinset := by
    ext key
    rw [List.mem_toFinset, List.mem_toFinset, List.mem_map, List.mem_map]
    constructor
    · rintro ⟨⟨path, a⟩, hmem, rfl⟩
      have hget := hkeyed.valueAt?_of_mem_preorder hmem
      obtain ⟨q, hq, hpath⟩ : ∃ q ∈ entries.map Prod.fst, samePath cmp q path = true := by
        by_contra hnone
        have habsent := get?_insertAll_eq_none_iff.2 hnone
        rw [get?_eq_valueAt?, comparer_insertAll, hget] at habsent
        cases habsent
      exact ⟨q, hq, pathKey_eq_iff.2 hpath⟩
    · rintro ⟨path, hpath, rfl⟩
      obtain ⟨a, ha⟩ := Option.ne_none_iff_exists'.1 (get?_insertAll_eq_none_iff.not.2
        (not_not_intro ⟨path, hpath, samePath_self cmp path⟩))
      rw [get?_eq_valueAt?, comparer_insertAll] at ha
      obtain ⟨shown, hmem, hshown⟩ := hkeyed.exists_mem_preorder ha
      exact ⟨_, hmem, pathKey_eq_iff.2 hshown⟩
  rw [countDistinct, ← hsame, List.toFinset_card_of_nodup hnodup, List.length_map,
    Node.length_preorder]
  rfl

end Graph

/-! ## The count beside the graph -/

/-- Adds templates under paths, one after the other. -/
def Knowledge.addAll (k : Knowledge) (entries : List (List Token × Template)) : Knowledge :=
  entries.foldl (fun k entry => (k.add entry.1 entry.2).1) k

theorem Knowledge.addAll_append (k : Knowledge) (entries more : List (List Token × Template)) :
    k.addAll (entries ++ more) = (k.addAll entries).addAll more :=
  List.foldl_append

/-- **The count says how many different paths there are.** -/
theorem Knowledge.addAll_eq (bot : Bot) (entries : List (List Token × Template)) :
    bot.initialKnowledge.addAll entries =
      { graph := Graph.insertAll bot.config.comparer entries
        size := countDistinct bot.config.comparer (entries.map Prod.fst) } := by
  -- induction on the entries from the last one back, which counts if its path is new
  induction entries using List.reverseRecOn with
  | nil => rfl
  | append_singleton entries entry ih =>
    obtain ⟨path, t⟩ := entry
    let k := bot.initialKnowledge.addAll entries
    have hlast : bot.initialKnowledge.addAll (entries ++ [(path, t)]) = (k.add path t).1 :=
      addAll_append ..
    rw [hlast, Graph.insertAll_concat, List.map_append, List.map_singleton, countDistinct_concat]
    have hk : k = _ := ih
    cases hget : k.graph.get? path with
    | none =>
      have hnew := hget
      rw [hk, Graph.get?_insertAll_eq_none_iff] at hnew
      rw [fst_add_of_get?_eq_none hget, if_neg hnew, hk]
    | some existing =>
      have hold : ¬ (Graph.insertAll bot.config.comparer entries).get? path = none := by
        rw [hk] at hget
        rw [hget]
        exact Option.some_ne_none existing
      rw [Graph.get?_insertAll_eq_none_iff, not_not] at hold
      rw [add_of_get?_eq_some hget, if_pos hold]
      rw [hk] at hget
      rw [Graph.insert_eq_self t hget, hk, Nat.add_zero]

/-! ## What is learned while the bot talks -/

/-- Whether a world comes from an earlier one by adding templates to the graph of all users, with
one report for each, in order. -/
structure World.Gained (v : World) (entries : List (List Token × Template)) (w : World) : Prop where
  knowledge : w.knowledge = v.knowledge.addAll entries
  told : ∃ events, w.log = events ++ v.log ∧
    events.reverse.filterMap Event.sharedPath? = entries.map fun entry => renderPath entry.1

namespace World.Gained

variable {u v w : World} {entries more : List (List Token × Template)}

/-- What neither adds nor reports anything. -/
theorem of_eq (hknowledge : w.knowledge = v.knowledge) (hlog : w.log = v.log) : v.Gained [] w where
  knowledge := hknowledge
  told := ⟨[], hlog, rfl⟩

theorem trans (h : u.Gained entries v) (h' : v.Gained more w) : u.Gained (entries ++ more) w where
  knowledge := by rw [h'.knowledge, h.knowledge, Knowledge.addAll_append]
  told := by
    obtain ⟨events, hlog, htold⟩ := h.told
    obtain ⟨later, hlog', htold'⟩ := h'.told
    refine ⟨later ++ events, by rw [hlog', hlog, List.append_assoc], ?_⟩
    rw [List.reverse_append, List.filterMap_append, htold, htold', List.map_append]

/-- Reports about other things account for nothing. -/
theorem of_told (w : World) {events : List Event} (h : ∀ e ∈ events, e.sharedPath? = none) :
    w.Gained [] { w with log := events ++ w.log } where
  knowledge := rfl
  told := by
    refine ⟨events, rfl, List.filterMap_eq_nil_iff.2 fun e he => ?_⟩
    exact h e (List.mem_reverse.1 he)

end World.Gained

namespace Bot

variable {bot : Bot}

/-- To learn a category for all users is reported once, whether its path is new or not. -/
theorem gained_learnShared (c : Category) (w : World) :
    w.Gained [(c.path bot.config none, c.template)] ((bot.learnShared c).run w).2 := by
  rw [learnShared, run_bind_state]
  unfold addCategory
  dsimp only
  rw [run_get_bind]
  have hknowledge : (w.knowledge.add (c.path bot.config none) c.template).1 =
      w.knowledge.addAll [(c.path bot.config none, c.template)] := rfl
  cases hadd : w.knowledge.add (c.path bot.config none) c.template with
  | mk knowledge existing? =>
    rw [hadd] at hknowledge
    cases existing? with
    | none => exact ⟨hknowledge, [_], rfl, rfl⟩
    | some existing => exact ⟨hknowledge, [_], rfl, rfl⟩

/-- What a user learns does not come to the graph of all users, and is reported otherwise. -/
theorem gained_learnOwn (c : Category) (w : World) : w.Gained [] ((bot.learnOwn c).run w).2 := by
  unfold learnOwn
  dsimp only
  rw [run_get_bind]
  cases w.user.graph.insert (c.path bot.config none) c.template with
  | mk graph existing? =>
    cases existing? with
    | none => exact ⟨rfl, [_], rfl, rfl⟩
    | some existing => exact ⟨rfl, [_], rfl, rfl⟩

/-- Everything that happens while the bot talks adds what it reports. -/
theorem endures_gained (bot : Bot) (v : World) :
    World.Endures bot fun w => ∃ entries, v.Gained entries w where
  told := by
    rintro w events hquiet ⟨entries, h⟩
    exact ⟨_, h.trans (.of_told w hquiet)⟩
  marked := by
    rintro w ⟨entries, h⟩
    exact ⟨_, h.trans (.of_eq rfl rfl)⟩
  setPredicate := by
    rintro w name value ⟨entries, h⟩
    exact ⟨_, h.trans (.of_eq rfl rfl)⟩
  wait := by
    rintro w time ⟨entries, h⟩
    exact ⟨_, h.trans (.of_eq rfl rfl)⟩
  learnShared := by
    rintro c - w ⟨entries, h⟩
    exact ⟨_, h.trans (gained_learnShared c w)⟩
  learnOwn := by
    rintro c - w ⟨entries, h⟩
    exact ⟨_, h.trans (gained_learnOwn c w)⟩
  recorded := by
    rintro w requests replies that ⟨entries, h⟩
    exact ⟨_, h.trans (.of_eq rfl rfl)⟩

/-- **What a request adds is what it reports.** -/
theorem exists_gained_chat (bot : Bot) (text : String) (w : World) :
    ∃ entries, w.Gained entries ((bot.chat text).run w).2 :=
  endures_chat (bot.endures_gained w) text w ⟨[], .of_eq rfl rfl⟩

end Bot

/-! ## Everything that can be done -/

/-- What is done with a bot, by its host or by who talks with it. -/
inductive Deed where
  /-- The bot is taught a category, which may stand under a topic. -/
  | add (topicName? : Option String) (c : Category)
  | learnShared (c : Category)
  | learnOwn (c : Category)
  | chat (text : String)
  /-- Another user comes to talk. -/
  | meet (user : User)

namespace Bot

/-- The world after something was done. -/
def after (bot : Bot) (w : World) : Deed → World
  | .add topicName? c => ((bot.addCategory topicName? c).run w).2
  | .learnShared c => ((bot.learnShared c).run w).2
  | .learnOwn c => ((bot.learnOwn c).run w).2
  | .chat text => ((bot.chat text).run w).2
  | .meet user => { w with user }

/-- What is added to the graph of all users when something is done, whether its path is new or not.
Of a request this is known from what it reports. -/
inductive Adds (bot : Bot) (w : World) : Deed → List (List Token × Template) → Prop where
  | add (topicName? : Option String) (c : Category) :
      Adds bot w (.add topicName? c) [(c.path bot.config topicName?, c.template)]
  | learnShared (c : Category) : Adds bot w (.learnShared c) [(c.path bot.config none, c.template)]
  | learnOwn (c : Category) : Adds bot w (.learnOwn c) []
  | chat {text : String} {entries : List (List Token × Template)}
      (gained : w.Gained entries (bot.after w (.chat text))) : Adds bot w (.chat text) entries
  | meet (user : User) : Adds bot w (.meet user) []

/-- What is added to the graph of all users when things are done one after the other. -/
inductive Account (bot : Bot) : World → List Deed → List (List Token × Template) → Prop where
  | none (w : World) : Account bot w [] []
  | deed {w : World} {d : Deed} {deeds : List Deed} {entries more : List (List Token × Template)}
      (adds : bot.Adds w d entries) (rest : Account bot (bot.after w d) deeds more) :
      Account bot w (d :: deeds) (entries ++ more)

variable {bot : Bot} {w : World} {d : Deed} {deeds : List Deed}
  {entries : List (List Token × Template)}

/-- Every deed adds something, if only nothing. -/
theorem exists_adds (bot : Bot) (w : World) (d : Deed) : ∃ entries, bot.Adds w d entries := by
  cases d with
  | add topicName? c => exact ⟨_, .add topicName? c⟩
  | learnShared c => exact ⟨_, .learnShared c⟩
  | learnOwn c => exact ⟨_, .learnOwn c⟩
  | chat text =>
    obtain ⟨entries, hgained⟩ := bot.exists_gained_chat text w
    exact ⟨entries, .chat hgained⟩
  | meet user => exact ⟨_, .meet user⟩

theorem exists_account (bot : Bot) (deeds : List Deed) (w : World) :
    ∃ entries, bot.Account w deeds entries := by
  induction deeds generalizing w with
  | nil => exact ⟨[], .none w⟩
  | cons d deeds ih =>
    obtain ⟨entries, hadds⟩ := bot.exists_adds w d
    obtain ⟨more, hrest⟩ := ih (bot.after w d)
    exact ⟨entries ++ more, .deed hadds hrest⟩

/-- The graph and the count change by what is added. -/
theorem Adds.knowledge_eq (h : bot.Adds w d entries) :
    (bot.after w d).knowledge = w.knowledge.addAll entries := by
  cases h with
  | add topicName? c =>
    obtain ⟨log, reported, hend⟩ := bot.reported_run_addCategory topicName? c w
    rw [after, hend]
    rfl
  | learnShared c => exact (gained_learnShared c w).knowledge
  | learnOwn c => exact (gained_learnOwn c w).knowledge
  | chat gained => exact gained.knowledge
  | meet user => rfl

theorem Account.knowledge_eq (h : bot.Account w deeds entries) :
    (deeds.foldl bot.after w).knowledge = w.knowledge.addAll entries := by
  induction h with
  | none w => rfl
  | deed adds _ ih => rw [List.foldl_cons, ih, adds.knowledge_eq, Knowledge.addAll_append]

/-- **The count of categories is right,** whatever is done with a bot that has learned nothing so
far. What is added is known from what is done and, for requests, from what they report; the count is
the number of different paths that were added. It is also the number of entries of the graph, and of
those that a walk through it hands out. -/
theorem size_counts_paths (hw : w.knowledge = bot.initialKnowledge) (deeds : List Deed) :
    let k := (deeds.foldl bot.after w).knowledge
    (∃ entries, bot.Account w deeds entries) ∧
      (∀ entries, bot.Account w deeds entries →
        k.size = countDistinct bot.config.comparer (entries.map Prod.fst)) ∧
      k.size = k.graph.size ∧
      ∃ items, k.graph.walk.Yields items ∧ items.length = k.size := by
  intro k
  -- the deeds change the shared graph by adding their entries in order, and in no other way
  have hcount : ∀ entries, bot.Account w deeds entries →
      k = { graph := Graph.insertAll bot.config.comparer entries
            size := countDistinct bot.config.comparer (entries.map Prod.fst) } := by
    intro entries h
    rw [← Knowledge.addAll_eq, ← hw]
    exact h.knowledge_eq
  obtain ⟨entries, haccount⟩ := bot.exists_account deeds w
  have hsize : k.size = k.graph.size := by
    rw [hcount entries haccount, Graph.size_insertAll]
  refine ⟨⟨entries, haccount⟩, fun entries h => by rw [hcount entries h], hsize, ?_⟩
  refine ⟨_, Walk.yields k.graph.walk, ?_⟩
  rw [hsize, ← (Walk.yields k.graph.walk).toList_eq, Graph.toList_walk, Graph.length_listing]

end Bot

namespace Samples

/-- A bot that can be asked to learn a greeting, which it learns from every sentence anew. -/
def eager : Bot where
  config := bot.config
  sets := bot.sets
  registry :=
    [("learn",
      { accept := fun _ => .ok ()
        script := fun _ =>
          .learn .everyone { pattern := "Hello *", template := "Hello!" } fun _ =>
            .done "Thanks!" })]

/-- Three ways to say hello: one under a topic, one that is there already in another spelling, and
one that only a user learns. -/
def lessons : List Deed :=
  let hello : Category := { pattern := [.word "HELLO"], template := { content := [.text "Hi!"] } }
  let again : Category := { pattern := [.word "hello"], template := { content := [.text "Hey!"] } }
  let teach : Category :=
    { pattern := [.word "LEARN"], template := { content := [.extension "learn" [] []] } }
  let greeting : Category :=
    { pattern := [.word "HELLO", .word "*"], template := { content := [.text "Good day!"] } }
  [.add none hello, .add none again, .add (some "greetings") again, .learnOwn greeting,
    .learnShared teach, .chat "Learn! Learn. Hello you.", .meet (.new eager.config "other"),
    .learnShared greeting]

end Samples

/-- Eight deeds and four different paths. -/
theorem Bot.size_counts_paths_lessons :
    let w : World :=
      { knowledge := Samples.eager.initialKnowledge, reported := false
        user := .new Samples.eager.config "user", clock := 0, log := [] }
    let k := (Samples.lessons.foldl Samples.eager.after w).knowledge
    k.size = 4 ∧ k.graph.size = 4 ∧
      (∃ entries, Samples.eager.Account w Samples.lessons entries) ∧
      ∀ entries, Samples.eager.Account w Samples.lessons entries →
        countDistinct Samples.eager.config.comparer (entries.map Prod.fst) = 4 := by
  intro w k
  have hsize : k.size = 4 := by decide +kernel
  obtain ⟨hexists, hcount, hgraph, -⟩ :=
    @Bot.size_counts_paths Samples.eager w rfl Samples.lessons
  exact ⟨hsize, hgraph.symm.trans hsize, hexists,
    fun entries h => (hcount entries h).symm.trans hsize⟩

end Parley
