import Parley.Proofs.Markup.Nesting

/-!
# More elements of the host

A host can add to the language of templates at any time, but it cannot change what is there. An
element that is offered under a name that is built in or taken is refused; any other is known from
then on, and all others stand for what they stood for. So markup that could be read before is read
as the same content, in which every element of the host does what it did.

Main results:

* `Stands.mono`, `Nests.mono` — a larger registry has the same elements with the same meaning;
* `mem_builtInNames_iff` — the built-in names are those of the elements that can be read without
  a host;
* `meaning_offerAll` — offering elements conserves the meaning of markup.
-/

namespace Parley

open Text Markup

/-! ## Elements of the host in content -/

mutual

/-- The elements of the host in a part, the outer ones before those in their content. -/
def Part.hostElements : Part → List HostElement
  | .text _ => []
  | .star _ _ => []
  | .srai content => Part.hostElementsIn content
  | .get _ _ => []
  | .set _ _ content => Part.hostElementsIn content
  | .think content => Part.hostElementsIn content
  | .extension name attributes content =>
    { name, attributes, content } :: Part.hostElementsIn content

/-- The elements of the host in a sequence of parts, from left to right. -/
def Part.hostElementsIn : List Part → List HostElement
  | [] => []
  | part :: rest => part.hostElements ++ Part.hostElementsIn rest

end

/-! ## Larger registries -/

namespace Registry

/-- Whether all that is known in a registry is known alike in another one. -/
def IsWithin (registry larger : Registry) : Prop :=
  ∀ name extension, registry.get? name = some extension → larger.get? name = some extension

theorem IsWithin.refl (registry : Registry) : registry.IsWithin registry := fun _ _ h => h

theorem IsWithin.trans {registry larger largest : Registry} (h : registry.IsWithin larger)
    (h' : larger.IsWithin largest) : registry.IsWithin largest :=
  fun name extension hget => h' name extension (h name extension hget)

/-- What an element that was read does, if it is known. -/
def script? (registry : Registry) (e : HostElement) : Option Script :=
  (registry.get? e.name).map fun extension => extension.script e

/-- A registry after an element was offered to it, with the name it is to have. It stays as it is if
the element is refused. -/
def offer (registry : Registry) (offered : String × Extension) : Registry :=
  match registry.register offered.1 offered.2 with
  | .ok extended => extended
  | .error _ => registry

/-- A registry after some elements were offered to it, one after the other. -/
def offerAll (registry : Registry) (offered : List (String × Extension)) : Registry :=
  offered.foldl offer registry

theorem mem_names_iff {registry : Registry} {name : String} :
    asciiLowercase name ∈ registry.names ↔ (registry.get? name).isSome := by
  rw [names, List.mem_mergeSort, List.mem_map, get?, List.lookup_isSome_iff]
  exact exists_congr fun entry => and_congr_right fun _ => by rw [beq_iff_eq, eq_comm]

theorem offer_of_error {registry : Registry} {name : String} {extension : Extension} {fault : Fault}
    (h : registry.register name extension = .error fault) :
    registry.offer (name, extension) = registry := by
  rw [offer, h]

/-- An element that is refused is refused for its name. -/
theorem eq_of_register_eq_error {registry : Registry} {name : String} {extension : Extension}
    {fault : Fault} (h : registry.register name extension = .error fault) :
    fault = .duplicateExtension (asciiLowercase name) := by
  unfold register at h
  dsimp only at h
  split at h
  · exact (Except.error.inj h).symm
  · cases h

/-- One offer changes nothing that is known. -/
theorem isWithin_offer (registry : Registry) (offered : String × Extension) :
    registry.IsWithin (registry.offer offered) := by
  intro name extension hget
  rw [offer]
  split
  · next extended hregister =>
    -- the name of an element that is accepted was not known
    have hnew : ¬∃ fault, registry.register offered.1 offered.2 = .error fault := by
      rintro ⟨fault, hfault⟩
      cases hfault.symm.trans hregister
    rw [register_eq_error_iff, not_or] at hnew
    rw [get?_of_register_eq_ok hregister, if_neg, hget]
    intro hname
    rw [get?, ← hname] at hnew
    rw [get?] at hget
    exact hnew.2 (by rw [hget]; rfl)
  · exact hget

theorem isWithin_offerAll (registry : Registry) (offered : List (String × Extension)) :
    registry.IsWithin (registry.offerAll offered) := by
  induction offered generalizing registry with
  | nil => exact .refl registry
  | cons first rest ih => exact (registry.isWithin_offer first).trans (ih (registry.offer first))

end Registry

namespace Template

variable {registry larger : Registry} {attributes : List (String × String)} {content : Content}

/-! ## Built-in names -/

/-- **The built-in names are those that need no host.** For every other name, all elements are
refused as long as the host has added none. -/
theorem mem_builtInNames_iff {name : String} :
    name ∈ builtInNames ↔
      ∀ attributes content,
        buildPart [] name attributes content ≠ .error (.invalidElement name .template) := by
  constructor
  · intro h attributes content
    -- a built-in element can have wrong attributes, and then that is what is told
    have hindex : ∀ (element : String) (f : Nat → Part),
        (readIndex element attributes).map f ≠ .error (.invalidElement name .template) := by
      intro element f
      unfold readIndex
      split
      · rintro ⟨⟩
      · split <;> rintro ⟨⟩
    have htarget : ∀ (element : String) (f : String × Scope → Part),
        (readTarget element attributes).map f ≠ .error (.invalidElement name .template) := by
      intro element f
      unfold readTarget
      split <;> rintro ⟨⟩
    simp only [builtInNames, List.mem_cons, List.not_mem_nil, or_false] at h
    rcases h with rfl | rfl | rfl | rfl | rfl | rfl | rfl | rfl
    · exact hindex _ _
    · exact hindex _ _
    · exact hindex _ _
    · rintro ⟨⟩
    · rintro ⟨⟩
    · rintro ⟨⟩
    · exact htarget _ _
    · exact htarget _ _
  · intro h
    by_contra hname
    -- without extensions, any other name is no element
    refine h [] [] ?_
    simp only [builtInNames, List.mem_cons, List.not_mem_nil, or_false, not_or] at hname
    unfold buildPart
    split
    all_goals first | rfl | simp_all

/-! ## What a larger registry leaves -/

/-- Elements stand for what they stood for. -/
theorem Stands.mono {name : String} {part : Part} (hwithin : registry.IsWithin larger)
    (h : Stands registry attributes content name part) :
    Stands larger attributes content name part := by
  cases h with
  | star h => exact .star h
  | sr => exact .sr
  | srai => exact .srai
  | think => exact .think
  | get h => exact .get h
  | set h => exact .set h
  | extension hname hget haccept => exact .extension hname (hwithin _ _ hget) haccept

/-- Markup is well nested as it was. -/
theorem Nests.mono {ls : List Lexeme} (hwithin : registry.IsWithin larger)
    (h : Nests registry ls content) : Nests larger ls content := by
  induction h with
  | nil => exact .nil
  | text _ ih => exact .text ih
  | single hopening hself hpart _ ih => exact .single hopening hself (hpart.mono hwithin) ih
  | element hopening hself _ hclosing hname hpart _ ihinside ih =>
    exact .element hopening hself ihinside hclosing hname (hpart.mono hwithin) ih

/-- The elements of the host that a part is read with are known. -/
theorem Stands.isSome_get? {name : String} {part : Part}
    (h : Stands registry attributes content name part)
    (hcontent : ∀ e ∈ Part.hostElementsIn content, (registry.get? e.name).isSome) :
    ∀ e ∈ part.hostElements, (registry.get? e.name).isSome := by
  cases h with
  | star h => nofun
  | sr => nofun
  | srai => exact hcontent
  | think => exact hcontent
  | get h => nofun
  | set h => exact hcontent
  | extension hname hget haccept =>
    exact List.forall_mem_cons.2 ⟨by rw [hget]; rfl, hcontent⟩

/-- So are all those in the content of well-nested markup. -/
theorem Nests.isSome_get? {ls : List Lexeme} (h : Nests registry ls content) :
    ∀ e ∈ Part.hostElementsIn content, (registry.get? e.name).isSome := by
  induction h with
  | nil => nofun
  | text _ ih => exact ih
  | single _ _ hpart _ ih =>
    exact List.forall_mem_append.2 ⟨hpart.isSome_get? nofun, ih⟩
  | element _ _ _ _ _ hpart _ ihinside ih =>
    exact List.forall_mem_append.2 ⟨hpart.isSome_get? ihinside, ih⟩

/-! ## The meaning of markup -/

/-- What markup means: its content, and what each element of the host in it does. -/
def meaning (registry : Registry) (markup : String) :
    Except Fault (Content × List (Option Script)) :=
  (parseContent registry markup).map fun content =>
    (content, (Part.hostElementsIn content).map registry.script?)

/-- In a larger registry markup means what it meant. -/
theorem meaning_mono (hwithin : registry.IsWithin larger) {markup : String}
    {m : Content × List (Option Script)} (h : meaning registry markup = .ok m) :
    meaning larger markup = .ok m := by
  obtain ⟨content, hread, rfl⟩ := map_eq_ok_iff.1 h
  obtain ⟨ls, hlexed, hnests⟩ := parseContent_eq_ok_iff.1 hread
  have hlarger := parseContent_eq_ok_iff.2 ⟨ls, hlexed, hnests.mono hwithin⟩
  refine map_eq_ok_iff.2 ⟨content, hlarger, congrArg (Prod.mk content) ?_⟩
  refine List.map_congr_left fun e he => ?_
  obtain ⟨extension, hget⟩ := Option.isSome_iff_exists.1 (hnests.isSome_get? e he)
  rw [Registry.script?, Registry.script?, hget, hwithin e.name extension hget]

/-- **To offer elements conserves the meaning of markup.** Whatever could be read before any number
of offers is read afterwards as the same content, with the same meaning of every element of the host
in it. An offer is refused exactly for the names of built-in elements and of those that are
registered, in any case, and then no markup means anything else, not even in its faults. One that is
not refused is known by its name in any case, and changes what no other name stands for. -/
theorem meaning_offerAll (registry : Registry) (offered : List (String × Extension)) :
    (∀ markup m, meaning registry markup = .ok m →
      parseContent (registry.offerAll offered) markup = .ok m.1 ∧
        meaning (registry.offerAll offered) markup = .ok m) ∧
    ∀ name extension,
      ((∃ fault, registry.register name extension = .error fault) ↔
        (∀ attributes content, buildPart [] (asciiLowercase name) attributes content ≠
          .error (.invalidElement (asciiLowercase name) .template)) ∨
        asciiLowercase name ∈ registry.names) ∧
      (∀ fault, registry.register name extension = .error fault →
        fault = .duplicateExtension (asciiLowercase name) ∧
          ∀ markup, meaning (registry.offer (name, extension)) markup = meaning registry markup) ∧
      ∀ extended, registry.register name extension = .ok extended →
        registry.offer (name, extension) = extended ∧
          ∀ other, extended.get? other =
            if asciiLowercase other = asciiLowercase name then some extension
            else registry.get? other := by
  refine ⟨fun markup m hm => ?_, fun name extension => ⟨?_, fun fault hfault => ?_, ?_⟩⟩
  -- what could be read with fewer extensions is read alike with more
  · have hlarger := meaning_mono (registry.isWithin_offerAll offered) hm
    obtain ⟨content, hread, rfl⟩ := map_eq_ok_iff.1 hlarger
    exact ⟨hread, hlarger⟩
  · rw [Registry.register_eq_error_iff, mem_builtInNames_iff, Registry.mem_names_iff]
  · refine ⟨Registry.eq_of_register_eq_error hfault, fun markup => ?_⟩
    rw [Registry.offer_of_error hfault]
  · intro extended hok
    refine ⟨?_, Registry.get?_of_register_eq_ok hok⟩
    rw [Registry.offer, hok]

/-- An element of the host that says its content. -/
def saying : Extension where
  accept _ := .ok ()
  script _ := .content .done

theorem meaning_offerAll_shout :
    (∃ content, parseContent [("shout", saying)] "<Shout>hi</Shout>" = .ok content ∧
      parseContent (Registry.offerAll [("shout", saying)] [("SHOUT", saying), ("whisper", saying)])
        "<Shout>hi</Shout>" = .ok content) ∧
      meaning (Registry.offer [("shout", saying)] ("Star", saying)) "<star/>" =
        meaning [("shout", saying)] "<star/>" := by
  have hconserved := meaning_offerAll [("shout", saying)] [("SHOUT", saying), ("whisper", saying)]
  have hok : (parseContent [("shout", saying)] "<Shout>hi</Shout>").isOk = true := by
    decide +kernel
  have hrefused : Registry.register [("shout", saying)] "Star" saying =
      .error (.duplicateExtension "star") := rfl
  refine ⟨?_, ((hconserved.2 "Star" saying).2.1 _ hrefused).2 _⟩
  cases hread : parseContent [("shout", saying)] "<Shout>hi</Shout>" with
  | ok content =>
    have hmeaning := congrArg (Except.map fun content =>
      (content, (Part.hostElementsIn content).map (Registry.script? [("shout", saying)]))) hread
    exact ⟨content, rfl, (hconserved.1 _ _ hmeaning).1⟩
  | error fault =>
    rw [hread] at hok
    cases hok

end Template

end Parley
