import CodeFacts.Proofs.Builder.Layers
import CodeFacts.Proofs.Query.Answers

/-!
Types looked up by name. A dotted name does not say which of its segments are packages and which are
types, so a lookup tries packages alone first and the names of all types of the kind then. Either
way it finds what a call has opened under the name, and nothing else.
-/

namespace CodeFacts

namespace Query

variable {σ : Type} [TripleStore σ] {store : σ} {name : String} {kind : EntityKind}

theorem isIdentifier_unmarked (unmarked : Dotted.Unmarked name) : isIdentifier name = false := by
  simp [isIdentifier, unmarked.1, unmarked.2]

theorem isIdentifier_text (id : Identifier) : isIdentifier id.text = true := by
  obtain ⟨start, ends, _⟩ := id.space.toList_eq
  have hash : '#' ∈ id.text.toList := by
    rw [Identifier.toList_text, ends]
    simp
  simp [isIdentifier, hash]

theorem typeText_text (id : Identifier) (kind : EntityKind) :
    typeText id.text kind = .ok id.text := by
  simp only [typeText, isIdentifier_text, if_true, Identifier.read_text]
  rfl

/-- The identifier of a proper name in packages alone has that name. -/
theorem typeText_proper (proper : Dotted.Proper name) (kind : EntityKind) :
    ∃ id : Identifier, typeText name kind = .ok id.text ∧ id.dottedName = name := by
  obtain ⟨packages, last, made, names, _⟩ := TypeRef.ofTypeName_ok kind proper.1
    fun segment member => proper.2.segment_plain member
  refine ⟨{ Identifier.empty with fragments := packages ++ [last] }, ?_,
    TypeRef.dottedName_eq proper.1 names⟩
  simp only [typeText, isIdentifier_unmarked proper.2, Bool.false_eq_true, if_false, made]
  rfl

theorem findNamed_texts (texts : List String)
    (identified : ∀ text ∈ texts, ∃ id : Identifier, id.text = text) :
    ∃ found : Option Identifier, findNamed name texts = .ok (found.map Identifier.text) ∧
      (∀ id ∈ found, id.text ∈ texts ∧ id.dottedName = name) ∧
      (found = none → ∀ id : Identifier, id.text ∈ texts → id.dottedName ≠ name) := by
  induction texts with
  | nil => exact ⟨none, rfl, nofun, fun _ _ => nofun⟩
  | cons text rest ih =>
      obtain ⟨first, rfl⟩ := identified text List.mem_cons_self
      simp only [findNamed, Identifier.read_text]
      by_cases called : first.dottedName = name
      · refine ⟨some first, ?_, ?_, nofun⟩
        · show (if first.dottedName = name then _ else _) = _
          rw [if_pos called]
          rfl
        · rintro _ ⟨rfl⟩
          exact ⟨List.mem_cons_self, called⟩
      · obtain ⟨found, later, sound, complete⟩ :=
          ih fun other member => identified other (List.mem_cons_of_mem _ member)
        refine ⟨found, ?_, ?_, ?_⟩
        · show (if first.dottedName = name then _ else _) = _
          rw [if_neg called]
          exact later
        · intro id member
          exact ⟨List.mem_cons_of_mem _ (sound id member).1, (sound id member).2⟩
        · intro none id member
          rcases List.mem_cons.mp member with same | other
          · rw [Identifier.text_injective same]
            exact called
          · exact complete none id other

/-- Where all types of a kind have identifiers, a lookup by name finds one that has the name, if
there is one. -/
theorem Lists.findType {triples : List Triple} (lists : Lists store triples)
    (identified : ∀ text, hasKind store (some text) kind = true → ∃ id : Identifier, id.text = text)
    (proper : Dotted.Proper name) :
    ∃ found : Option Identifier,
      Query.findType store name [kind] = .ok (found.map Identifier.text) ∧
      (∀ id ∈ found, hasKind store (some id.text) kind = true ∧ id.dottedName = name) ∧
      (found = none → ∀ id : Identifier, hasKind store (some id.text) kind = true →
        id.dottedName ≠ name) := by
  obtain ⟨top, written, called⟩ := typeText_proper proper kind
  simp only [Query.findType, findTopLevel, written]
  by_cases declared : hasKind store (some top.text) kind = true
  · refine ⟨some top, ?_, ?_, fun absent => absurd absent (Option.some_ne_none top)⟩
    · show (if hasKind store (some top.text) kind = true then _ else _) >>= _ = _
      rw [if_pos declared]
      rfl
    · rintro _ ⟨rfl⟩
      exact ⟨declared, called⟩
  · have each : ∀ text ∈ allOfKind store kind, ∃ id : Identifier, id.text = text :=
      fun text member => identified text (lists.mem_allOfKind.mp member)
    obtain ⟨found, searched, sound, complete⟩ : ∃ found : Option Identifier,
        findNamed name (allOfKind store kind) = .ok (found.map Identifier.text) ∧ _ :=
      findNamed_texts _ each
    refine ⟨found, ?_, ?_, ?_⟩
    · show (if hasKind store (some top.text) kind = true then _ else _) >>= _ = _
      rw [if_neg declared]
      show (if isIdentifier name = true then _ else _) = _
      rw [isIdentifier_unmarked proper.2, if_neg Bool.false_ne_true]
      simpa using searched
    · intro id member
      exact ⟨lists.mem_allOfKind.mp (sound id member).1, (sound id member).2⟩
    · exact fun none id told => complete none id (lists.mem_allOfKind.mpr told)

theorem findType_text (id : Identifier) (told : hasKind store (some id.text) kind = true) :
    Query.findType store id.text [kind] = .ok (some id.text) := by
  simp only [Query.findType, findTopLevel, typeText_text]
  show (if hasKind store (some id.text) kind = true then _ else _) >>= _ = _
  rw [if_pos told]
  rfl

theorem type_of_findType {id : Identifier}
    (found : Query.findType store name [kind] = .ok (some id.text))
    (type : kind ∈ EntityKind.types) (readable : Readable store id.text) :
    ∃ entity, Query.type store name kind = .ok entity ∧ entity.id = id.text ∧
      entity.qualifiedName = id.dottedName := by
  obtain ⟨entity, read, same⟩ := readable.entity type
  refine ⟨entity, ?_, same⟩
  simp only [Query.type, requireType, found]
  exact read

/-- Whether the types of a kind in a store are those that some scopes opened, called as the scopes
are, and can be read. -/
structure Holds (store : σ) (kind : EntityKind) (opened : Scope → Prop) : Prop where
  told : ∀ scope, opened scope → hasKind store (some scope.identifier.text) kind = true
  from_scope : ∀ text, hasKind store (some text) kind = true →
    ∃ scope, opened scope ∧ scope.identifier.text = text
  called : ∀ scope, opened scope → scope.name = scope.identifier.dottedName
  readable : ∀ text, Readable store text

namespace Holds

variable {triples : List Triple} {opened : Scope → Prop}

/-- A lookup by a proper name finds the identifier of a scope that was opened under it. -/
theorem findType (holds : Holds store kind opened) (lists : Lists store triples)
    (proper : Dotted.Proper name) :
    ∃ found : Option Scope,
      Query.findType store name [kind] = .ok (found.map (·.identifier.text)) ∧
      (∀ scope ∈ found, opened scope ∧ scope.name = name) ∧
      (found = none → ∀ scope, opened scope → scope.name ≠ name) := by
  have identified : ∀ text, hasKind store (some text) kind = true →
      ∃ id : Identifier, id.text = text := by
    intro text declared
    obtain ⟨scope, _, same⟩ := holds.from_scope text declared
    exact ⟨scope.identifier, same⟩
  obtain ⟨found, searched, sound, complete⟩ := lists.findType identified proper
  cases found with
  | none =>
      refine ⟨none, searched, nofun, fun _ scope was_opened named => ?_⟩
      refine complete rfl scope.identifier (holds.told scope was_opened) ?_
      rw [← holds.called scope was_opened, named]
  | some id =>
      obtain ⟨declared, dotted⟩ := sound id rfl
      obtain ⟨scope, was_opened, same⟩ := holds.from_scope id.text declared
      refine ⟨some scope, by rw [searched, Option.map_some, Option.map_some, same], ?_, nofun⟩
      rintro _ ⟨rfl⟩
      refine ⟨was_opened, ?_⟩
      rw [holds.called scope was_opened, Identifier.text_injective same, dotted]

theorem typeExists (holds : Holds store kind opened) (lists : Lists store triples)
    (proper : Dotted.Proper name) :
    ∃ answer, Query.typeExists store name kind = .ok answer ∧
      (answer = true ↔ ∃ scope, opened scope ∧ scope.name = name) := by
  obtain ⟨found, searched, sound, complete⟩ := holds.findType lists proper
  refine ⟨found.isSome, ?_, ?_⟩
  · rw [Query.typeExists, searched]
    cases found <;> rfl
  · cases found with
    | none => exact iff_of_false nofun fun ⟨scope, was_opened, named⟩ =>
        complete rfl scope was_opened named
    | some scope => exact iff_of_true rfl ⟨scope, sound scope rfl⟩

theorem type_by_name (holds : Holds store kind opened) (lists : Lists store triples)
    (proper : Dotted.Proper name) (type : kind ∈ EntityKind.types) {scope : Scope}
    (was_opened : opened scope) (named : scope.name = name) :
    ∃ entity, Query.type store name kind = .ok entity ∧ entity.qualifiedName = name ∧
      ((∀ other, opened other → other.name = name → other.identifier = scope.identifier) →
        entity.id = scope.identifier.text) := by
  obtain ⟨found, searched, sound, complete⟩ := holds.findType lists proper
  cases found with
  | none => exact absurd named (complete rfl scope was_opened)
  | some other =>
      obtain ⟨was_opened, named⟩ := sound other rfl
      obtain ⟨entity, read, identified, qualified⟩ :=
        type_of_findType searched type (holds.readable other.identifier.text)
      refine ⟨entity, read, ?_, fun single => ?_⟩
      · rw [qualified, ← holds.called other was_opened, named]
      · rw [identified, single other was_opened named]

theorem type_by_text (holds : Holds store kind opened) (type : kind ∈ EntityKind.types)
    {scope : Scope} (was_opened : opened scope) :
    ∃ entity, Query.type store scope.identifier.text kind = .ok entity ∧
      entity.id = scope.identifier.text := by
  have found := findType_text scope.identifier (holds.told scope was_opened)
  obtain ⟨entity, read, identified, _⟩ := type_of_findType found type (holds.readable _)
  exact ⟨entity, read, identified⟩

end Holds

end Query

/-- Whether the mask of the modifiers of a declaration has few enough digits to be read. -/
def Call.shortMask (call : Call) : Bool :=
  call.modifiers?.all fun bits =>
    decide ((Text.naturalText (Modifier.mask bits)).length ≤ Text.digitLimit)

namespace Builder

variable {builder : Builder PlainStore} {calls : List Call}

/-- What a run over an empty store says is of a kind of type is a scope that was opened. -/
theorem opened_of_kind (empty : builder.model.store.triples = []) {text : String}
    {kind : EntityKind} {literal : Bool} (type : kind ∈ EntityKind.types)
    (told : ⟨text, Predicate.subClassOf.uri, kind.uri, literal⟩ ∈
      (Handler.after builder calls).model.store.triples) :
    ∃ scope, builder.Opened calls scope ∧ scope.kind = kind ∧ scope.identifier.text = text := by
  obtain ⟨state, call, accepts, said⟩ := said_of_empty empty told
  obtain ⟨container, id, found, entity, same⟩ := said .subClassOf rfl
  obtain ⟨rfl, _, uri, _⟩ := Triple.mk.inj same
  obtain rfl := EntityKind.uri_injective uri
  cases entity with
  | opened opening opened => exact ⟨_, ⟨state, call, _, accepts, opening, opened⟩, rfl, rfl⟩
  | member _ told => exact absurd type (Call.no_type_of_declaring told)
  | signature => exact absurd type (by decide)
  | parameter => exact absurd type (by decide)

theorem readable_after (empty : builder.model.store.triples = [])
    (short : ∀ call ∈ calls, call.shortMask = true) {σ : Type} [TripleStore σ] {store : σ}
    (lists : Query.Lists store (Handler.after builder calls).model.store.triples) (text : String) :
    Query.Readable store text := by
  constructor
  · intro word member
    obtain ⟨literal, told⟩ := lists.mem_objects.mp member
    obtain ⟨state, call, _, said⟩ := said_of_empty empty told
    exact said .hasVisibility rfl
  · intro mask member
    obtain ⟨literal, told⟩ := lists.mem_objects.mp member
    obtain ⟨state, call, accepts, said⟩ := said_of_empty empty told
    obtain ⟨bits, given, rfl⟩ := said .hasModifiers rfl
    have masked := short call accepts.mem
    rw [Call.shortMask, Option.mem_def.mp given, Option.all_some] at masked
    exact ⟨_, rfl, of_decide_eq_true masked⟩

theorem holds_after (empty : builder.model.store.triples = []) (layers : builder.Layers)
    (proper : ∀ call ∈ calls, call.properlyNamed = true)
    (short : ∀ call ∈ calls, call.shortMask = true) {σ : Type} [TripleStore σ] {store : σ}
    (lists : Query.Lists store (Handler.after builder calls).model.store.triples)
    {kind : EntityKind} (type : kind ∈ EntityKind.types) :
    Query.Holds store kind fun scope => builder.Opened calls scope ∧ scope.kind = kind where
  told := by
    rintro scope ⟨opened, rfl⟩
    have stands := layers.opened proper opened
    exact lists.hasKind_iff.mpr ⟨false, stands.layered.told stands.strongest type⟩
  from_scope := by
    intro text declared
    obtain ⟨literal, told⟩ := lists.hasKind_iff.mp declared
    obtain ⟨scope, opened, same, identified⟩ := opened_of_kind empty type told
    exact ⟨scope, ⟨opened, same⟩, identified⟩
  called := fun scope opened => (layers.opened proper opened.1).called
  readable := readable_after empty short lists

/-- After any calls in which containers have proper names, over an empty store and whatever the
rules, a type of a kind exists under a proper name just if a scope of the kind was opened under it.
It is read with that name, and as the scope if no other of the kind has the name; by the text of its
identifier each is read itself. -/
theorem types_by_name (ontology : Ontology) (symbols : SymbolTable) (date : String)
    (calls : List Call) (proper : ∀ call ∈ calls, call.properlyNamed = true)
    (short : ∀ call ∈ calls, call.shortMask = true) (kind : EntityKind)
    (type : kind ∈ EntityKind.types) (name : String) (called : Dotted.Proper name) :
    let first := start ⟨ontology, symbols, MemoryStore.empty⟩ date
    let store := (Handler.after first calls).model.store
    let opened scope := first.Opened calls scope ∧ scope.kind = kind
    (∃ answer, Query.typeExists store name kind = .ok answer ∧
      (answer = true ↔ ∃ scope, opened scope ∧ scope.name = name)) ∧
    ∀ scope, opened scope → scope.name = name →
      (∃ entity, Query.type store name kind = .ok entity ∧ entity.qualifiedName = name ∧
        ((∀ other, opened other → other.name = name → other.identifier = scope.identifier) →
          entity.id = scope.identifier.text)) ∧
      ∃ entity, Query.type store scope.identifier.text kind = .ok entity ∧
        entity.id = scope.identifier.text := by
  intro first store opened
  have lists : Query.Lists store
      (Handler.after (first.map MemoryStore.view) calls).model.store.triples := by
    rw [after_map]
    exact Query.lists_memory store
  have holds : Query.Holds store kind opened := by
    have plain : Query.Holds store kind fun scope =>
        (first.map MemoryStore.view).Opened calls scope ∧ scope.kind = kind :=
      holds_after rfl (layers_start _ date) proper short lists type
    simpa only [opened_map] using plain
  refine ⟨holds.typeExists lists called, fun scope was_opened named => ?_⟩
  exact ⟨holds.type_by_name lists called type was_opened named,
    holds.type_by_text type was_opened⟩

/-- A class inside a class of a package is found by its dotted name, though no packages alone lead to
it. -/
theorem nestedClass_found :
    let calls := [.startParsing (.text "lib") (.text "/lib"), .startPackage (.text "a"),
      .startClass .null (.text "B") [] none [], .startClass .null (.text "C") [] none []]
    let first := start ⟨classRules, .empty, MemoryStore.empty⟩ "2024-01-01"
    let store := (Handler.after first calls).model.store
    (∃ scope, (first.Opened calls scope ∧ scope.kind = .classType) ∧ scope.name = "a.B.C") ∧
      Query.typeExists store "a.B.C" .classType = .ok true ∧
      ∃ entity, Query.type store "a.B.C" .classType = .ok entity ∧
        entity.qualifiedName = "a.B.C" := by
  intro calls first store
  have proper : ∀ call ∈ calls, call.properlyNamed = true := by decide +kernel
  have short : ∀ call ∈ calls, call.shortMask = true := by decide +kernel
  have opened : ∃ scope, (first.Opened calls scope ∧ scope.kind = .classType) ∧
      scope.name = "a.B.C" := by
    let outer := Handler.after (first.map MemoryStore.view) (calls.take 3)
    let last := Call.startClass .null (.text "C") [] none []
    have checked : (outer.handle last).1.isAccepted = true ∧
        (outer.handle last).2.scopeName = "a.B.C" := by decide +kernel
    obtain ⟨scope, opened, kind, called, _⟩ :=
      opened_innermost ⟨⟨calls.take 3, [], rfl, rfl⟩, checked.1⟩ rfl
    exact ⟨scope, ⟨(opened_map MemoryStore.view).mp opened, kind⟩, called.trans checked.2⟩
  obtain ⟨⟨answer, asked, found⟩, read⟩ := types_by_name classRules .empty "2024-01-01" calls proper
    short .classType (by decide) "a.B.C" (by decide +kernel)
  obtain ⟨scope, was_opened, named⟩ := opened
  obtain ⟨⟨entity, typed, called, _⟩, _⟩ := read scope was_opened named
  rw [found.mpr ⟨scope, was_opened, named⟩] at asked
  exact ⟨⟨scope, was_opened, named⟩, asked, entity, typed, called⟩

end Builder

end CodeFacts
