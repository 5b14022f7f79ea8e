import CodeFacts.Proofs.Builder.Roots

/-!
The forest of entities. A declaration says of what kind its entity is first and what holds it last,
from two records of where it stands, the path and the scopes. As long as nothing is left on the path
that no scope owns, the two agree, so after any calls the store has a forest.
-/

namespace CodeFacts

namespace Call

variable {call : Call} {kind : EntityKind} {writes : Declared} {after : List Triple}
  {container id : Identifier}

open Declaration

theorem tells_of_opens (told : call.opens? = some (kind, writes)) (container id : Identifier) :
    Write.resource id.text .subClassOf kind.uri ∈ writes container id ∧
      containment container kind id.text ∈ writes container id := by
  cases call <;> cases told <;>
    simp [packageWrites, classWrites, interfaceWrites, enumerationWrites, headWrites, kindWrites]

theorem tells_of_declares (told : call.declares? = some (kind, writes))
    (container id : Identifier) :
    Write.resource id.text .subClassOf kind.uri ∈ writes container id ∧
      containment container kind id.text ∈ writes container id := by
  cases call <;> cases told <;>
    simp [attributeWrites, executableWrites, headWrites, kindWrites]

theorem roots_of_opens (told : call.opens? = some (kind, writes))
    (planted : Planted after container id kind) :
    ∀ first ∈ writes container id, first.Roots after := by
  cases call with
  | startPackage =>
      cases told
      exact packageWrites_root planted
  | startClass =>
      cases told
      exact classWrites_root planted _ _ _ _
  | startInterface =>
      cases told
      exact interfaceWrites_root planted _ _ _
  | startEnumeration =>
      cases told
      exact enumerationWrites_root planted _ _ _ _
  | _ => cases told

theorem roots_of_declares (told : call.declares? = some (kind, writes))
    (planted : Planted after container id kind) (filled : 0 < id.size)
    (states : States after (writes container id)) :
    ∀ first ∈ writes container id, first.Roots after := by
  cases call with
  | «attribute» =>
      cases told
      exact attributeWrites_root planted _ _ _ _
  | constructor =>
      cases told
      exact executableWrites_root planted filled _ _ _ _ _ _ _ states
  | method =>
      cases told
      exact executableWrites_root planted filled _ _ _ _ _ _ _ states
  | _ => cases told

end Call

namespace Builder

variable {builder : Builder PlainStore} {call : Call}

/-- What holds of a builder that keeps a forest: no fragment on its path is stray, and its open
scopes are entities of the store. -/
structure Grown (builder : Builder PlainStore) : Prop where
  tracks : builder.Tracks 0
  forest : Forest builder.model.store.triples
  opened : ∀ scope ∈ builder.scopes,
    kindTriple scope.identifier.text scope.kind ∈ builder.model.store.triples

theorem Grown.known (grown : builder.Grown) :
    Known builder.model.store.triples builder.container.text := by
  unfold Builder.container
  cases open_scope : builder.scopes with
  | nil => exact .inl rfl
  | cons scope outer => exact .inr ⟨scope.kind, grown.opened scope (mem_scopes open_scope)⟩

theorem Grown.innermost (grown : builder.Grown) {scope : Scope} {outer : List Scope}
    (open_scope : builder.scopes = scope :: outer) :
    scope.identifier = builder.path ∧ 0 < builder.path.size := by
  have stacked := grown.tracks.stacked rfl
  rw [open_scope] at stacked
  obtain ⟨same, _, some_pushed, within, _⟩ := stacked
  exact ⟨same, Nat.lt_of_lt_of_le some_pushed within⟩

/-- What is put on a path without stray fragments hangs from the innermost scope. -/
theorem Grown.holder (grown : builder.Grown) {id : Identifier} {name qualifier : String}
    (child : builder.path.child name qualifier = .ok id) : id.holder = builder.container := by
  unfold Builder.container
  cases open_scope : builder.scopes with
  | nil =>
      have stacked := grown.tracks.stacked rfl
      rw [open_scope] at stacked
      have none : builder.path = .empty := stacked
      obtain ⟨fragment, rfl, _⟩ := Identifier.push_of_child child
      rw [none]
      exact Identifier.holder_push_first rfl fragment
  | cons scope outer =>
      obtain ⟨same, filled⟩ := grown.innermost open_scope
      dsimp only
      rw [same]
      exact Identifier.holder_of_child filled child

/-- Accepted additions of a builder whose entities are planted keep the forest and what is open. -/
theorem Grown.write (grown : builder.Grown) {writes : List Write} {model : Model PlainStore}
    {unknown : List String} (written : builder.model.writeAll writes = (model, .ok unknown))
    (roots : ∀ first ∈ writes, first.Roots model.store.triples) :
    Forest model.store.triples ∧
      ∀ scope ∈ builder.scopes,
        kindTriple scope.identifier.text scope.kind ∈ model.store.triples := by
  have grows := Model.writeAll_grows written
  exact ⟨grown.forest.grows grows roots, fun scope member =>
    grows.kept _ (grown.opened scope member)⟩

theorem Grown.handle (grown : builder.Grown)
    (unmarked : ∀ name, call = .startPackage (.text name) → Dotted.Unmarked name) :
    (builder.handle call).2.Grown := by
  have tracks : (builder.handle call).2.Tracks 0 := by
    have moved := grown.tracks.moves (moves_handle call)
    rw [leftOver_unmarked unmarked, Nat.add_zero, ite_self] at moved
    exact moved
  -- A refused call changes nothing here: what it leaves on the path has a name with marks.
  cases accepted : (builder.handle call).1.isAccepted with
  | false =>
      rw [refused_unmarked unmarked accepted]
      exact grown
  | true =>
      have outcome := outcome_handle builder call
      generalize builder.handle call = result at tracks accepted outcome
      cases outcome with
      | refuses => cases accepted
      | begins => exact ⟨tracks, grown.forest, nofun⟩
      | beginsUnit | endsUnit | notes => exact ⟨tracks, grown.forest, grown.opened⟩
      | ends model unknown _ _ _ _ written =>
          obtain ⟨forest, opened⟩ := grown.write written (Declaration.libraryWrites_root _ _ _)
          exact ⟨tracks, forest, opened⟩
      | closes kind scope outer _ _ open_scope =>
          exact ⟨tracks, grown.forest, fun other member =>
            grown.opened other (mem_scopes_of_outer open_scope member)⟩
      | opens kind writes segments name notices path model unknown told _ some_segment _ pushed
          written single =>
          have grows := Model.writeAll_grows written
          obtain ⟨kind_told, holding_told⟩ := Call.tells_of_opens told builder.container path
          have planted : Planted model.store.triples builder.container path kind :=
            { strongest := pushAll_strongest segments pushed some_segment
              told := grows.stated _ _ _ kind_told
              held := grows.stated _ _ _ holding_told
              known := grown.known.mono grows.kept
              below := by
                -- Only a package puts more than one fragment on the path.
                intro other
                obtain ⟨segment, rfl⟩ := single other
                exact grown.holder (child_of_pushAll pushed) }
          obtain ⟨forest, opened⟩ := grown.write written (Call.roots_of_opens told planted)
          refine ⟨tracks, forest, ?_⟩
          intro scope member
          rcases List.mem_cons.mp member with rfl | outer
          · exact planted.told
          · exact opened scope outer
      | declares kind writes scope outer name id notices model unknown told _ open_scope child
          written =>
          have grows := Model.writeAll_grows written
          obtain ⟨kind_told, holding_told⟩ := Call.tells_of_declares told scope.identifier id
          obtain ⟨same, filled⟩ := grown.innermost open_scope
          have planted : Planted model.store.triples scope.identifier id kind :=
            { strongest := Identifier.strongest_of_child child
              told := grows.stated _ _ _ kind_told
              held := grows.stated _ _ _ holding_told
              known := .inr ⟨scope.kind, grows.kept _ (grown.opened scope (mem_scopes open_scope))⟩
              below := fun _ => Identifier.holder_of_child (same ▸ filled) child }
          obtain ⟨forest, opened⟩ := grown.write written (Call.roots_of_declares told planted
            (Identifier.size_of_child child) grows.stated)
          exact ⟨tracks, forest, opened⟩

theorem Grown.after (calls : List Call) {builder : Builder PlainStore} (grown : builder.Grown)
    (unmarked : ∀ name, .startPackage (.text name) ∈ calls → Dotted.Unmarked name) :
    (Handler.after builder calls).Grown := by
  induction calls generalizing builder with
  | nil => exact grown
  | cons call rest ih =>
      refine ih (grown.handle ?_) fun name member =>
        unmarked name (List.mem_cons_of_mem call member)
      rintro name rfl
      exact unmarked name List.mem_cons_self

/-- After any calls, accepted or refused, in which no package has a name with other marks than dots,
the containments of what is no package make up a forest, whatever the rules: what is held has its
kind, it is held by what its identifier names before it, which has a kind or is the default package,
and what has a kind is held by one thing. -/
theorem containment_forest (ontology : Ontology) (symbols : SymbolTable) (date : String)
    (calls : List Call)
    (unmarked : ∀ name, .startPackage (.text name) ∈ calls → Dotted.Unmarked name) :
    let triples :=
      (Handler.after (start ⟨ontology, symbols, MemoryStore.empty⟩ date) calls).model.store.triples
    (∀ triple ∈ triples, ∀ kind : EntityKind, kind ≠ .package →
      triple.predicate = (Predicate.contains kind).uri →
        kindTriple triple.object kind ∈ triples ∧ Known triples triple.subject ∧
          ∃ id, Identifier.read triple.object = .ok id ∧ triple.subject = id.holder.text) ∧
      ∀ text, ∀ kind : EntityKind, kind ≠ .package → kindTriple text kind ∈ triples →
        ∃! triple, triple ∈ triples ∧ triple.object = text ∧
          ∃ other : EntityKind, other ≠ .package ∧
            triple.predicate = (Predicate.contains other).uri := by
  intro triples
  let first := start ⟨ontology, symbols, MemoryStore.empty⟩ date
  have start_grown : (first.map MemoryStore.view).Grown :=
    ⟨tracks_start _ date, forest_empty, nofun⟩
  have grown := start_grown.after calls unmarked
  rw [after_map] at grown
  have forest : Forest triples := grown.forest
  refine ⟨?_, ?_⟩
  · intro triple member kind other same
    obtain ⟨container, id, rfl, planted⟩ := forest.placed triple member kind other same
    refine ⟨planted.told, planted.known, id, id.read_text, ?_⟩
    rw [planted.below other]
    rfl
  · intro text kind other told
    obtain ⟨holder, held⟩ := forest.held text kind other told
    refine ⟨holdingTriple holder kind text, ⟨held, rfl, kind, other, rfl⟩, ?_⟩
    rintro triple ⟨member, named, found, type, same⟩
    obtain ⟨container, id, rfl, planted⟩ := forest.placed triple member found type same
    obtain ⟨again, called, shape, twice⟩ := forest.placed _ held kind other rfl
    obtain ⟨rfl, _, rfl, _⟩ := Triple.mk.inj shape
    obtain ⟨rfl, rfl⟩ := planted.unique twice named type
    exact congrArg _ named

theorem classInPackage_held :
    let calls := [.startParsing (.text "lib") (.text "/lib"), .startPackage (.text "a"),
      .startClass .null (.text "B") [] none []]
    let rules := Ontology.ofRelations
      [⟨EntityKind.package.pattern, Predicate.subClassOf.uri, .resource EntityKind.package.uri⟩,
        ⟨EntityKind.classType.pattern, Predicate.subClassOf.uri,
          .resource EntityKind.classType.uri⟩,
        Ontology.linkRule .package (.contains .package) .package,
        Ontology.linkRule .package (.contains .classType) .classType,
        Ontology.noteRule .classType .hasModifiers]
    let triples := (Handler.after (start ⟨rules, .empty, MemoryStore.empty⟩ "2024-01-01")
      calls).model.store.triples
    (∀ name, Call.startPackage (.text name) ∈ calls → Dotted.Unmarked name) ∧
      kindTriple (resource "jpackage:a.jclass:B") .classType ∈ triples ∧
      ∃! triple, triple ∈ triples ∧ triple.object = resource "jpackage:a.jclass:B" ∧
        ∃ kind : EntityKind, kind ≠ .package ∧
          triple.predicate = (Predicate.contains kind).uri := by
  intro calls rules triples
  have unmarked : ∀ name, Call.startPackage (.text name) ∈ calls → Dotted.Unmarked name := by
    intro name member
    have same : name = "a" := by simpa [calls] using member
    rw [same]
    decide
  have told : kindTriple (resource "jpackage:a.jclass:B") .classType ∈ triples := by
    have same := after_map MemoryStore.view calls
      (start ⟨rules, .empty, MemoryStore.empty⟩ "2024-01-01")
    have listed : triples = (Handler.after ((start ⟨rules, .empty, MemoryStore.empty⟩
        "2024-01-01").map MemoryStore.view) calls).model.store.triples := by
      rw [same]
      rfl
    rw [listed]
    decide +kernel
  exact ⟨unmarked, told, (containment_forest rules .empty "2024-01-01" calls unmarked).2 _
    .classType (by decide) told⟩

end Builder

end CodeFacts
