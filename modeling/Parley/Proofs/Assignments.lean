import Mathlib.Data.List.Induction
import Mathlib.Data.List.Pairwise
import Parley.Proofs.Folding
import Parley.User

/-!
# What was assigned last

Predicates of a user and variables of a template are kept in tables under the keys of their names,
and looked up by name. Here a table is compared with the assignments that were made: it holds, under
every spelling of a name, the value that was assigned last under any spelling of it.

The defaults of predicates are not assigned but configured, under names as they are spelled. They
are looked up with the comparer of the configuration, and predicates without regard to case. So the
two agree unless the comparer is exact.

Main results:

* `Entries.Holds.lookup_eq` — what is looked up in a table is what was assigned last;
* `Comparer.Apart.lookup_eq` — where keys are told apart, only one entry can be meant by a name;
* `User.predicate_assignAll` — the values of predicates, and when their spelling matters.
-/

namespace Parley

/-! ## Assignments in their order -/

namespace Comparer

variable {cmp : Comparer} {a b : String}

/-- The value that was assigned last under some spelling of a name. The assignments are listed in
the order in which they were made. -/
def latest? (cmp : Comparer) (assignments : List (String × String)) (name : String) :
    Option String :=
  (assignments.reverse.find? fun assigned => cmp.equals assigned.1 name).map Prod.snd

@[simp] theorem latest?_nil (cmp : Comparer) (name : String) : cmp.latest? [] name = none := rfl

/-- An assignment counts for all spellings of its name, and for no other name. -/
theorem latest?_concat (cmp : Comparer) (assignments : List (String × String))
    (other value name : String) :
    cmp.latest? (assignments ++ [(other, value)]) name =
      if cmp.equals other name then some value else cmp.latest? assignments name := by
  rw [latest?, List.reverse_concat, List.find?_cons]
  by_cases h : cmp.equals other name = true
  · rw [h, if_pos rfl]
    rfl
  · rw [Bool.not_eq_true] at h
    rw [h, if_neg (by decide)]
    rfl

/-- What is the same as one of two spellings of a name is the same as the other. -/
theorem equals_right (h : cmp.equals a b = true) (c : String) :
    cmp.equals c a = cmp.equals c b := by
  rw [equals, equals, (cmp.equals_iff_key_eq a b).1 h]

theorem latest?_congr (h : cmp.equals a b = true) (assignments : List (String × String)) :
    cmp.latest? assignments a = cmp.latest? assignments b := by
  simp only [latest?, equals_right h]

end Comparer

/-! ## Tables under keys -/

namespace Entries

variable {α : Type} {cmp : Comparer} {entries : Entries α}

/-- In a table under keys, a name is the same as a key only if the key is its own. So it does not
matter whether it is first looked up as it is spelled. -/
theorem lookup_of_keys (hkeys : ∀ entry ∈ entries, cmp.key entry.1 = entry.1) (name : String) :
    cmp.lookup entries name = entries.lookup (cmp.key name) := by
  induction entries with
  | nil => rfl
  | cons entry rest ih =>
    obtain ⟨k, value⟩ := entry
    obtain ⟨hk, hrest⟩ := List.forall_mem_cons.1 hkeys
    have ih := ih hrest
    have hsame : cmp.equals k name = true ↔ cmp.key name = k := by
      rw [Comparer.equals_iff_key_eq, hk, eq_comm]
    rw [Comparer.lookup] at ih ⊢
    rw [lookup_cons_eq, lookup_cons_eq, List.find?_cons]
    by_cases hname : name = k
    · -- a name that is spelled like a key is its own key
      subst hname
      rw [if_pos rfl, if_pos hk]
    · rw [if_neg hname]
      by_cases hkey : cmp.key name = k
      · rw [if_pos hkey, hsame.2 hkey]
        -- no other entry has this name, because it is not a key
        have hnone : rest.lookup name = none := by
          rw [Option.eq_none_iff_forall_ne_some]
          intro other hother
          have hown := hrest _ (mem_of_lookup_eq_some hother)
          exact hname (hown.symm.trans hkey)
        rw [hnone]
        rfl
      · have hdiffers : cmp.equals k name = false := by
          rw [Bool.eq_false_iff]
          exact fun h => hkey (hsame.1 h)
        rw [if_neg hkey, hdiffers]
        exact ih

/-- Whether a table has, under keys, what was assigned last to each name. -/
structure Holds (cmp : Comparer) (entries : Entries String) (assignments : List (String × String)) :
    Prop where
  keys : ∀ entry ∈ entries, cmp.key entry.1 = entry.1
  lookup_key : ∀ name, entries.lookup (cmp.key name) = cmp.latest? assignments name

namespace Holds

variable {entries : Entries String} {assignments : List (String × String)}

theorem nil (cmp : Comparer) : Holds cmp [] [] where
  keys := by simp
  lookup_key _ := rfl

/-- A table goes on to hold what was assigned last if assignments go to the keys of names. -/
theorem assign (h : Holds cmp entries assignments) (name value : String) :
    Holds cmp (entries.assign (cmp.key name) value) (assignments ++ [(name, value)]) where
  keys := by
    intro entry hentry
    rcases List.mem_cons.1 hentry with rfl | hentry
    · exact cmp.key_key name
    · exact h.keys entry (List.mem_filter.1 hentry).1
  lookup_key other := by
    rw [lookup_assign, h.lookup_key, Comparer.latest?_concat]
    by_cases hsame : cmp.equals name other = true
    · rw [if_pos hsame, if_pos ((cmp.equals_iff_key_eq ..).1 hsame).symm]
    · have hkeys : ¬ cmp.key other = cmp.key name := by
        intro hkey
        exact hsame ((cmp.equals_iff_key_eq ..).2 hkey.symm)
      rw [if_neg hsame, if_neg hkeys]

/-- What is looked up in a table is what was assigned last. -/
theorem lookup_eq (h : Holds cmp entries assignments) (name : String) :
    cmp.lookup entries name = cmp.latest? assignments name := by
  rw [lookup_of_keys h.keys, h.lookup_key]

end Holds

end Entries

/-! ## Configured values -/

namespace Comparer

variable {α : Type} {cmp : Comparer} {entries : Entries α}

/-- Whether keys are told apart by a comparer. -/
def Apart (cmp : Comparer) (entries : Entries α) : Prop :=
  entries.Pairwise fun x y => cmp.equals x.1 y.1 = false

/-- Where keys are told apart, only one entry can be meant by a name. -/
theorem Apart.find?_eq (hapart : cmp.Apart entries) {entry : String × α} (hmem : entry ∈ entries)
    {name : String} (hname : cmp.equals entry.1 name = true) :
    entries.find? (fun entry => cmp.equals entry.1 name) = some entry := by
  have hsymm : Std.Symm fun x y : String × α => cmp.equals x.1 y.1 = false :=
    ⟨fun x y h => (cmp.equals_comm y.1 x.1).trans h⟩
  cases hfind : entries.find? (fun entry => cmp.equals entry.1 name) with
  | none =>
    have hnone := List.find?_eq_none.1 hfind entry hmem
    exact absurd hname hnone
  | some found =>
    have hfound : cmp.equals found.1 name = true :=
      @List.find?_some _ (fun entry : String × α => cmp.equals entry.1 name) _ _ hfind
    by_contra hne
    have hdiffers := List.Pairwise.forall hapart (List.mem_of_find?_eq_some hfind) hmem
      (fun h => hne (congrArg some h))
    rw [equals_right hname, hfound] at hdiffers
    cases hdiffers

/-- Where keys are told apart, it does not matter whether a name is first looked up as it is
spelled. -/
theorem Apart.lookup_eq (hapart : cmp.Apart entries) (name : String) :
    cmp.lookup entries name =
      (entries.find? fun entry => cmp.equals entry.1 name).map Prod.snd := by
  rw [lookup]
  cases hlookup : entries.lookup name with
  | none => rfl
  | some value =>
    rw [hapart.find?_eq (Entries.mem_of_lookup_eq_some hlookup) (cmp.equals_self name)]
    rfl

/-- What is the same under some comparer is the same but for case. -/
theorem equals_ignoreCase {a b : String} (h : cmp.equals a b = true) :
    ignoreCase.equals a b = true := by
  cases cmp with
  | ignoreCase => exact h
  | exact =>
    obtain rfl : a = b := (exact.equals_iff_key_eq a b).1 h
    exact ignoreCase.equals_self a

/-- Keys that are told apart without regard to case are told apart in every way. -/
theorem Apart.of_ignoreCase (h : ignoreCase.Apart entries) (cmp : Comparer) :
    cmp.Apart entries := by
  refine List.Pairwise.imp (fun hdiffers => ?_) h
  rw [Bool.eq_false_iff] at hdiffers ⊢
  exact fun hsame => hdiffers (equals_ignoreCase hsame)

end Comparer

namespace Config

variable {config : Config} {cmp : Comparer} {name other : String}

/-- The default of a predicate, if its name is compared in a given way. -/
def defaultUnder (config : Config) (cmp : Comparer) (name : String) : String :=
  ((config.defaultPredicates.find? fun entry => cmp.equals entry.1 name).map Prod.snd).getD
    config.defaultPredicate

/-- Defaults are looked up with the comparer of the configuration. -/
theorem defaultPredicateFor_eq (hapart : config.comparer.Apart config.defaultPredicates)
    (name : String) :
    config.defaultPredicateFor name = config.defaultUnder config.comparer name := by
  rw [defaultPredicateFor, hapart.lookup_eq, defaultUnder]

theorem defaultUnder_congr (h : cmp.equals name other = true) :
    config.defaultUnder cmp name = config.defaultUnder cmp other := by
  simp only [defaultUnder, Comparer.equals_right h]

theorem defaultUnder_of_mem (hapart : cmp.Apart config.defaultPredicates)
    {entry : String × String} (hmem : entry ∈ config.defaultPredicates)
    (hname : cmp.equals entry.1 name = true) : config.defaultUnder cmp name = entry.2 := by
  rw [defaultUnder, hapart.find?_eq hmem hname]
  rfl

theorem defaultUnder_of_forall
    (hnone : ∀ entry ∈ config.defaultPredicates, ¬ cmp.equals entry.1 name = true) :
    config.defaultUnder cmp name = config.defaultPredicate := by
  rw [defaultUnder, List.find?_eq_none.2 hnone]
  rfl

/-- A name that is compared exactly has the default of the predicate if this is how the default is
spelled, or if it has none of its own. -/
theorem defaultUnder_exact_eq_iff (hapart : Comparer.ignoreCase.Apart config.defaultPredicates)
    (hsame : Comparer.ignoreCase.equals other name = true) :
    config.defaultUnder .exact other = config.defaultUnder .ignoreCase name ↔
      ∀ entry ∈ config.defaultPredicates, Comparer.ignoreCase.equals entry.1 name = true →
        entry.1 = other ∨ entry.2 = config.defaultPredicate := by
  have hexact := hapart.of_ignoreCase .exact
  by_cases hdefault : ∃ entry ∈ config.defaultPredicates,
      Comparer.ignoreCase.equals entry.1 name = true
  · obtain ⟨entry, hmem, hname⟩ := hdefault
    -- names apart from each other, at most one default belongs to the predicate
    have honly : ∀ e ∈ config.defaultPredicates, Comparer.ignoreCase.equals e.1 name = true →
        e = entry := by
      intro e he hename
      exact Option.some.inj ((hapart.find?_eq he hename).symm.trans (hapart.find?_eq hmem hname))
    rw [defaultUnder_of_mem hapart hmem hname]
    by_cases hspelled : entry.1 = other
    · -- the default is spelled in this way
      rw [defaultUnder_of_mem hexact hmem ((Comparer.exact.equals_iff_key_eq ..).2 hspelled)]
      refine iff_of_true rfl ?_
      intro e he hename
      rw [honly e he hename]
      exact Or.inl hspelled
    · -- the only default of the predicate is spelled in another way
      rw [defaultUnder_of_forall]
      · constructor
        · intro hvalue e he hename
          rw [honly e he hename]
          exact Or.inr hvalue.symm
        · intro hall
          rcases hall entry hmem hname with h | h
          · exact absurd h hspelled
          · exact h.symm
      · intro e he heother
        have hother : e.1 = other := (Comparer.exact.equals_iff_key_eq ..).1 heother
        have hename := Comparer.equals_trans (Comparer.equals_ignoreCase heother) hsame
        rw [honly e he hename] at hother
        exact hspelled hother
  · -- without a default of its own, the predicate has the common one under every spelling
    have hnone : ∀ entry ∈ config.defaultPredicates,
        ¬ Comparer.ignoreCase.equals entry.1 name = true :=
      fun entry hmem hname => hdefault ⟨entry, hmem, hname⟩
    rw [defaultUnder_of_forall hnone, defaultUnder_of_forall]
    · exact iff_of_true rfl fun entry hmem hname => absurd hname (hnone entry hmem)
    · intro entry hmem hother
      exact hnone entry hmem (Comparer.equals_trans (Comparer.equals_ignoreCase hother) hsame)

end Config

/-! ## Predicates -/

namespace User

variable {config : Config} {assignments : List (String × String)} {a b : String}

/-- Gives predicates values, one after the other. -/
def assignAll (user : User) (assignments : List (String × String)) : User :=
  assignments.foldl (fun user assigned => user.setPredicate assigned.1 assigned.2) user

/-- The predicates of a user of whom only assignments are known hold what was assigned last. -/
theorem holds_assignAll (config : Config) (id : String) (assignments : List (String × String)) :
    Entries.Holds .ignoreCase ((User.new config id).assignAll assignments).predicates
      assignments := by
  -- induction from the last assignment on
  induction assignments using List.reverseRecOn with
  | nil => exact .nil .ignoreCase
  | append_singleton assignments assigned ih =>
    rw [assignAll, List.foldl_append]
    exact ih.assign assigned.1 assigned.2

/-- The value that a predicate has under every spelling of its name, if names are compared without
regard to case: the one that was assigned last, or its default. -/
def due (config : Config) (assignments : List (String × String)) (name : String) : String :=
  (Comparer.ignoreCase.latest? assignments name).getD (config.defaultUnder .ignoreCase name)

/-- **The value of a predicate** is the one that was assigned last under any spelling of its name,
or else the default under a name that is the same to the comparer of the configuration. So it is due
to both of two spellings, unless the comparer is exact, nothing was assigned, and there is a default
for the predicate that not both are the spelling of, and that differs from the common one. -/
theorem predicate_assignAll (id : String)
    (hapart : Comparer.ignoreCase.Apart config.defaultPredicates)
    (hsame : Comparer.ignoreCase.equals a b = true) :
    let user := (User.new config id).assignAll assignments
    user.predicate config a =
        (Comparer.ignoreCase.latest? assignments a).getD
          (config.defaultUnder config.comparer a) ∧
      ((user.predicate config a = due config assignments a ∧
          user.predicate config b = due config assignments a) ↔
        (config.comparer = .exact → Comparer.ignoreCase.latest? assignments a = none →
          ∀ entry ∈ config.defaultPredicates, Comparer.ignoreCase.equals entry.1 a = true →
            entry.1 = a ∧ entry.1 = b ∨ entry.2 = config.defaultPredicate)) := by
  intro user
  have hvalue : ∀ name, user.predicate config name =
      (Comparer.ignoreCase.latest? assignments name).getD
        (config.defaultUnder config.comparer name) := by
    intro name
    rw [predicate, (holds_assignAll config id assignments).lookup_key,
      Config.defaultPredicateFor_eq (hapart.of_ignoreCase config.comparer)]
  refine ⟨hvalue a, ?_⟩
  rw [hvalue a, hvalue b, due, ← Comparer.latest?_congr hsame assignments]
  cases Comparer.ignoreCase.latest? assignments a with
  | some value =>
    -- what was assigned is found under both spellings
    exact iff_of_true ⟨rfl, rfl⟩ fun _ hnone => absurd hnone (by simp)
  | none =>
    dsimp only [Option.getD_none]
    cases config.comparer with
    | ignoreCase =>
      refine iff_of_true ⟨rfl, ?_⟩ fun hexact => absurd hexact (by decide)
      exact (Config.defaultUnder_congr hsame).symm
    | exact =>
      have hsame' := (Comparer.ignoreCase.equals_comm b a).trans hsame
      rw [Config.defaultUnder_exact_eq_iff hapart (Comparer.ignoreCase.equals_self a),
        Config.defaultUnder_exact_eq_iff hapart hsame']
      constructor
      · rintro ⟨ha, hb⟩ - - entry hmem hname
        rcases ha entry hmem hname with hentry | hentry
        · exact (hb entry hmem hname).imp_left fun hother => ⟨hentry, hother⟩
        · exact Or.inr hentry
      · intro hboth
        have hall := hboth rfl rfl
        exact ⟨fun entry hmem hname => (hall entry hmem hname).imp_left And.left,
          fun entry hmem hname => (hall entry hmem hname).imp_left And.right⟩

end User

namespace Samples

/-- A bot that compares exactly and takes those without a name for friends. -/
def friendly : Config where
  comparer := .exact
  defaultPredicates := [("name", "friend")]

end Samples

/-- Once a name was told, it is known under each of two spellings, of which neither is that of the
default. -/
theorem User.predicate_assignAll_friendly :
    let user := (User.new Samples.friendly "ann").assignAll [("Name", "Ann")]
    Comparer.ignoreCase.equals "NAME" "nAME" = true ∧
      user.predicate Samples.friendly "NAME" = "Ann" ∧
      user.predicate Samples.friendly "nAME" = "Ann" := by
  have hsame : Comparer.ignoreCase.equals "NAME" "nAME" = true := by decide +kernel
  have hlatest : Comparer.ignoreCase.latest? [("Name", "Ann")] "NAME" = some "Ann" := by
    decide +kernel
  have hdue : User.due Samples.friendly [("Name", "Ann")] "NAME" = "Ann" := by
    rw [User.due, hlatest]
    rfl
  have hvalues := (@User.predicate_assignAll Samples.friendly [("Name", "Ann")] "NAME" "nAME" "ann"
    (List.pairwise_singleton ..) hsame).2.2 fun _ hnone => by
      -- something was assigned
      rw [hlatest] at hnone
      cases hnone
  rw [hdue] at hvalues
  exact ⟨hsame, hvalues⟩

/-- As long as no name was told, the spelling of the predicate matters to such a bot. -/
theorem User.predicate_differs_friendly :
    let user := User.new Samples.friendly "ann"
    Comparer.ignoreCase.Apart Samples.friendly.defaultPredicates ∧
      Comparer.ignoreCase.equals "name" "NAME" = true ∧
      user.predicate Samples.friendly "name" = "friend" ∧
      user.predicate Samples.friendly "NAME" = "unknown" := by
  refine ⟨List.pairwise_singleton .., ?_, ?_, ?_⟩ <;> decide +kernel

end Parley
