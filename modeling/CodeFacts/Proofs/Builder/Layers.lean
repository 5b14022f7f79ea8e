import CodeFacts.Proofs.Builder.Accept
import CodeFacts.Proofs.Builder.Forest
import CodeFacts.Proofs.Builder.Said

/-!
What the open scopes are called. Where names are made of filled segments without marks, every scope
has the dotted name of its identifier, and that leads through packages to types that are declared.
-/

namespace CodeFacts

namespace Identifier

/-- Whether every fragment of an identifier has a name. -/
def Named (id : Identifier) : Prop := ∀ fragment ∈ id.fragments, fragment.name ≠ ""

theorem Named.dottedName {id : Identifier} (named : id.Named) :
    id.dottedName = Dotted.join (id.fragments.map (·.name)) := by
  have kept : (id.fragments.map (·.name)).filter (· != "") = id.fragments.map (·.name) := by
    rw [List.filter_eq_self]
    intro name member
    obtain ⟨fragment, inside, rfl⟩ := List.mem_map.mp member
    exact bne_iff_ne.mpr (named fragment inside)
  rw [Identifier.dottedName, kept]

/-- The segments of the dotted name of an identifier are the names of its fragments. -/
theorem Named.segments {id : Identifier} (named : id.Named) (filled : id.fragments ≠ []) :
    Dotted.segments id.dottedName = id.fragments.map (·.name) := by
  have undotted : ∀ part ∈ (id.fragments.map (·.name)).map String.toList, '.' ∉ part := by
    intro part member
    simp only [List.mem_map] at member
    obtain ⟨_, ⟨fragment, _, rfl⟩, rfl⟩ := member
    exact ((reservedMark?_eq_none_iff _).mp fragment.name_plain).1
  rw [named.dottedName, Dotted.segments, Dotted.join, String.toList_ofList,
    Text.splitOn_joinWith (by simpa using filled) undotted]
  simp [Function.comp_def]

theorem Named.proper {id : Identifier} (named : id.Named) (filled : id.fragments ≠ []) :
    Dotted.Proper id.dottedName := by
  constructor
  · rw [named.segments filled]
    intro empty
    obtain ⟨fragment, member, same⟩ := List.mem_map.mp empty
    exact named fragment member same
  · rw [named.dottedName]
    refine Dotted.unmarked_join fun segment member => ?_
    obtain ⟨fragment, _, rfl⟩ := List.mem_map.mp member
    exact ((reservedMark?_eq_none_iff _).mp fragment.name_plain).2

theorem Named.outer {outer : Identifier} {fragment : Fragment}
    (named : (outer.push fragment).Named) : outer.Named :=
  fun other member => named other (List.mem_append_left _ member)

/-- The dotted name of a child is split into that of its parent and its own name. -/
theorem Named.parts {outer : Identifier} {fragment : Fragment}
    (named : (outer.push fragment).Named) :
    Dotted.outer (outer.push fragment).dottedName = outer.dottedName ∧
      Dotted.simple (outer.push fragment).dottedName = fragment.name := by
  have filled : (outer.push fragment).fragments ≠ [] := by simp [push]
  have split := Dotted.segments_eq_of_filled (named.proper filled).1
  have names : (outer.push fragment).fragments.map (·.name) =
      outer.fragments.map (·.name) ++ [fragment.name] := by simp [push]
  rw [named.segments filled, names] at split
  obtain ⟨before, last⟩ := List.append_inj' split rfl
  refine ⟨?_, (List.cons.inj last).1.symm⟩
  rw [named.outer.dottedName, before]
  by_cases outermost : Dotted.outer (outer.push fragment).dottedName = ""
  · rw [if_pos outermost, outermost]
    rfl
  · rw [if_neg outermost, Dotted.join_segments]

end Identifier

/-- Whether an identifier leads through packages to types that triples declare, all of them named. -/
inductive Layered (triples : List Triple) : Identifier → Prop
  | packages {id : Identifier} (space : id.space = Space.model)
      (each : ∀ fragment ∈ id.fragments,
        fragment.qualifier = EntityKind.package.key ∧ fragment.name ≠ "") : Layered triples id
  | type {outer : Identifier} {fragment : Fragment} {kind : EntityKind}
      (around : Layered triples outer) (type : kind ∈ EntityKind.types)
      (qualifier : fragment.qualifier = kind.key) (named : fragment.name ≠ "")
      (told : kindTriple (outer.push fragment).text kind ∈ triples) :
      Layered triples (outer.push fragment)

namespace Layered

variable {before after : List Triple} {id : Identifier}

theorem mono (layered : Layered before id) (kept : ∀ triple ∈ before, triple ∈ after) :
    Layered after id := by
  induction layered with
  | packages space each => exact .packages space each
  | type _ type qualifier named told ih => exact .type ih type qualifier named (kept _ told)

theorem space (layered : Layered before id) : id.space = Space.model := by
  induction layered with
  | packages space => exact space
  | type _ _ _ _ _ ih => exact ih

theorem named (layered : Layered before id) : id.Named := by
  induction layered with
  | packages _ each => exact fun fragment member => (each fragment member).2
  | type _ _ _ named _ ih =>
      intro fragment member
      rcases List.mem_append.mp member with outer | last
      · exact ih fragment outer
      · rw [List.mem_singleton.mp last]
        exact named

/-- What ends with a package is made of packages. -/
theorem of_package (layered : Layered before id)
    (package : id.strongestQualifier = .ok EntityKind.package.key) :
    ∀ fragment ∈ id.fragments,
      fragment.qualifier = EntityKind.package.key ∧ fragment.name ≠ "" := by
  cases layered with
  | packages _ each => exact each
  | type _ type qualifier =>
      rw [Identifier.strongestQualifier_push, qualifier] at package
      obtain rfl := EntityKind.key_injective (Except.ok.inj package)
      exact absurd type (by decide)

/-- A type is declared itself. -/
theorem told {kind : EntityKind} (layered : Layered before id)
    (strongest : id.strongestQualifier = .ok kind.key) (type : kind ∈ EntityKind.types) :
    kindTriple id.text kind ∈ before := by
  cases layered with
  | packages _ each =>
      unfold Identifier.strongestQualifier at strongest
      cases last : id.fragments.getLast? with
      | none =>
          rw [last] at strongest
          cases strongest
      | some fragment =>
          rw [last] at strongest
          have package := (each fragment (List.mem_of_getLast? last)).1
          rw [Except.ok.inj strongest] at package
          obtain rfl := EntityKind.key_injective package
          exact absurd type (by decide)
  | type _ _ qualifier _ told =>
      rw [Identifier.strongestQualifier_push, qualifier] at strongest
      obtain rfl := EntityKind.key_injective (Except.ok.inj strongest)
      exact told

end Layered

/-- Whether a name given for a container is made of filled segments without marks. -/
def Call.properlyNamed (call : Call) : Bool :=
  match call.opening? with
  | some (_, .text name) => decide (Dotted.Proper name)
  | _ => true

theorem Call.proper {call : Call} {kind : EntityKind} {name : String}
    (named : call.properlyNamed = true) (told : call.opening? = some (kind, .text name)) :
    Dotted.Proper name := by
  rw [properlyNamed, told] at named
  exact of_decide_eq_true named

namespace Builder

variable {builder : Builder PlainStore} {call : Call}

theorem pushAll_fragments {kind : EntityKind} (segments : List String)
    {path reached : Identifier} (pushed : pushAll kind path segments = (reached, none)) :
    ∃ more, reached = { path with fragments := path.fragments ++ more } ∧
      ∀ fragment ∈ more, fragment.qualifier = kind.key ∧ fragment.name ∈ segments := by
  induction segments generalizing path with
  | nil =>
      obtain rfl := (Prod.mk.inj pushed).1
      exact ⟨[], by simp, nofun⟩
  | cons segment rest ih =>
      unfold pushAll at pushed
      cases child : path.child segment kind.key with
      | error fault =>
          rw [child] at pushed
          cases pushed
      | ok next =>
          rw [child] at pushed
          obtain ⟨first, rfl, named, qualified⟩ := Identifier.push_of_child child
          obtain ⟨more, rfl, each⟩ := ih pushed
          refine ⟨first :: more, by simp [Identifier.push], ?_⟩
          intro fragment member
          rcases List.mem_cons.mp member with rfl | later
          · exact ⟨qualified, named ▸ List.mem_cons_self⟩
          · exact ⟨(each fragment later).1, List.mem_cons_of_mem segment (each fragment later).2⟩

/-- What holds of a builder whose containers were given proper names. -/
structure Layers (builder : Builder PlainStore) : Prop where
  tracks : builder.Tracks 0
  kinded : builder.Kinded
  layered : ∀ scope ∈ builder.scopes, Layered builder.model.store.triples scope.identifier

theorem Layers.path (layers : builder.Layers) :
    Layered builder.model.store.triples builder.path := by
  have stacked := layers.tracks.stacked rfl
  cases open_scope : builder.scopes with
  | nil =>
      rw [open_scope] at stacked
      rw [show builder.path = .empty from stacked]
      exact .packages rfl nofun
  | cons scope outer =>
      rw [open_scope] at stacked
      rw [← stacked.1]
      exact layers.layered scope (mem_scopes open_scope)

/-- Every open scope has the dotted name of its identifier. -/
theorem Layers.called (layers : builder.Layers) {scope : Scope} (member : scope ∈ builder.scopes) :
    scope.name = scope.identifier.dottedName := by
  obtain ⟨_, _, names⟩ := stacked_mirrors (layers.tracks.stacked rfl)
  rw [(layers.layered scope member).named.dottedName, names scope member]

/-- What a package is opened in is made of packages. -/
theorem Layers.packages (layers : builder.Layers) (nested : builder.otherScope? = none) :
    ∀ fragment ∈ builder.path.fragments,
      fragment.qualifier = EntityKind.package.key ∧ fragment.name ≠ "" := by
  have stacked := layers.tracks.stacked rfl
  cases open_scope : builder.scopes with
  | nil =>
      rw [open_scope] at stacked
      rw [show builder.path = .empty from stacked]
      exact nofun
  | cons scope outer =>
      rw [open_scope] at stacked
      have member := mem_scopes open_scope
      have package : scope.kind = .package := by
        by_contra other
        rw [otherScope?, open_scope, List.head?_cons, Option.filter_some,
          if_pos (decide_eq_true other)] at nested
        cases nested
      have strongest := (layers.kinded scope member).2
      rw [package] at strongest
      rw [← stacked.1]
      exact (layers.layered scope member).of_package strongest

theorem Layers.handle (layers : builder.Layers) (proper : call.properlyNamed = true) :
    (builder.handle call).2.Layers := by
  have unmarked : ∀ name, call = .startPackage (.text name) → Dotted.Unmarked name := by
    rintro name rfl
    exact (Call.proper proper rfl).2
  have tracks : (builder.handle call).2.Tracks 0 := by
    have moved := layers.tracks.moves (moves_handle call)
    rw [leftOver_unmarked unmarked, Nat.add_zero, ite_self] at moved
    exact moved
  have kinded := layers.kinded.handle call
  have outcome := outcome_handle builder call
  -- A builder takes no triple back, so that what is layered stays so under its additions.
  have kept {writes : List Write} {model : Model PlainStore} {unknown : List String}
      (written : builder.model.writeAll writes = (model, .ok unknown)) :
      ∀ scope ∈ builder.scopes, Layered model.store.triples scope.identifier :=
    fun scope member => (layers.layered scope member).mono (Model.writeAll_grows written).kept
  cases accepted : (builder.handle call).1.isAccepted with
  | false =>
      rw [refused_unmarked unmarked accepted]
      exact layers
  | true =>
      generalize builder.handle call = result at tracks kinded accepted outcome
      cases outcome with
      | refuses => cases accepted
      | begins => exact ⟨tracks, kinded, nofun⟩
      | beginsUnit | endsUnit | notes => exact ⟨tracks, kinded, layers.layered⟩
      | ends _ _ _ _ _ _ written => exact ⟨tracks, kinded, kept written⟩
      | declares _ _ _ _ _ _ _ _ _ _ _ _ _ written => exact ⟨tracks, kinded, kept written⟩
      | closes kind scope outer _ _ open_scope =>
          exact ⟨tracks, kinded, fun other member =>
            layers.layered other (mem_scopes_of_outer open_scope member)⟩
      | opens kind writes segments name notices path model unknown told _ _ _ pushed written single
          nested given =>
          refine ⟨tracks, kinded, ?_⟩
          intro other member
          rcases List.mem_cons.mp member with rfl | outer
          swap
          · exact kept written other outer
          obtain ⟨text, opening, within⟩ := given
          have filled {segment : String} (inside : segment ∈ segments) : segment ≠ "" :=
            (Call.proper proper opening).filled (within segment inside)
          have grows := Model.writeAll_grows written
          -- Under a package stand packages alone; a type may stand in anything that is layered.
          by_cases package : kind = .package
          · subst package
            obtain ⟨more, rfl, each⟩ := pushAll_fragments segments pushed
            refine .packages layers.tracks.space fun fragment member => ?_
            rcases List.mem_append.mp member with before | behind
            · exact layers.packages (nested rfl) fragment before
            · obtain ⟨qualified, named⟩ := each fragment behind
              exact ⟨qualified, filled named⟩
          · obtain ⟨segment, rfl⟩ := single package
            obtain ⟨fragment, rfl, named, qualified⟩ :=
              Identifier.push_of_child (child_of_pushAll pushed)
            have type : kind ∈ EntityKind.types :=
              (List.mem_cons.mp (Call.kind_of_opens told)).resolve_left package
            refine .type (layers.path.mono grows.kept) type qualified ?_ ?_
            · rw [named]
              exact filled List.mem_cons_self
            · exact grows.stated _ _ _ (Call.tells_of_opens told builder.container _).1

theorem Layers.after (calls : List Call) {builder : Builder PlainStore} (layers : builder.Layers)
    (proper : ∀ call ∈ calls, call.properlyNamed = true) :
    (Handler.after builder calls).Layers := by
  induction calls generalizing builder with
  | nil => exact layers
  | cons call rest ih =>
      exact ih (layers.handle (proper call List.mem_cons_self)) fun other member =>
        proper other (List.mem_cons_of_mem call member)

/-- Whether one of some calls, made one after the other, is accepted and opens a scope. -/
def Opened {σ : Type} [TripleStore σ] (builder : Builder σ) (calls : List Call) (scope : Scope) :
    Prop :=
  ∃ state call name, builder.Accepts calls state call ∧
    call.opening? = some (scope.kind, name) ∧
      (state.handle call).2.scopes = scope :: state.scopes

/-- Where a call that opens a container is accepted, it opens a scope of its kind. -/
theorem opened_of_accepts {σ : Type} [TripleStore σ] {builder state : Builder σ}
    {calls : List Call} {call : Call} {kind : EntityKind} {name : Value}
    (accepts : builder.Accepts calls state call) (told : call.opening? = some (kind, name)) :
    ∃ scope, builder.Opened calls scope ∧ scope.kind = kind ∧
      (state.handle call).2.scopes = scope :: state.scopes := by
  obtain ⟨writes, segments, full, unknown, _, opened, _⟩ := opens_of_accepted accepts.accepted told
  exact ⟨_, ⟨state, call, name, accepts, told, opened⟩, rfl, opened⟩

theorem opened_innermost {σ : Type} [TripleStore σ] {builder state : Builder σ}
    {calls : List Call} {call : Call} {kind : EntityKind} {name : Value}
    (accepts : builder.Accepts calls state call) (told : call.opening? = some (kind, name)) :
    ∃ scope, builder.Opened calls scope ∧ scope.kind = kind ∧
      scope.name = (state.handle call).2.scopeName ∧
      scope.identifier = (state.handle call).2.container := by
  obtain ⟨scope, opened, same, innermost⟩ := opened_of_accepts accepts told
  refine ⟨scope, opened, same, ?_, ?_⟩
  · rw [scopeName, innermost]
  · rw [container, innermost]

theorem opened_map {σ τ : Type} [TripleStore σ] [TripleStore τ] (view : StoreMap σ τ)
    {builder : Builder σ} {calls : List Call} {scope : Scope} :
    (builder.map view).Opened calls scope ↔ builder.Opened calls scope := by
  constructor
  · rintro ⟨_, call, name, accepts, told, opened⟩
    obtain ⟨state, rfl, origin⟩ := (accepts_map view).mp accepts
    rw [handle_map] at opened
    exact ⟨state, call, name, origin, told, opened⟩
  · rintro ⟨state, call, name, accepts, told, opened⟩
    refine ⟨state.map view, call, name, (accepts_map view).mpr ⟨state, rfl, accepts⟩, told, ?_⟩
    rw [handle_map]
    exact opened

/-- What is known of a scope that was opened, in any state after it. -/
structure Standing (triples : List Triple) (scope : Scope) : Prop where
  called : scope.name = scope.identifier.dottedName
  layered : Layered triples scope.identifier
  strongest : scope.identifier.strongestQualifier = .ok scope.kind.key

theorem Layers.opened (layers : builder.Layers) {calls : List Call}
    (proper : ∀ call ∈ calls, call.properlyNamed = true) {scope : Scope}
    (opened : builder.Opened calls scope) :
    Standing (Handler.after builder calls).model.store.triples scope := by
  obtain ⟨state, call, name, ⟨⟨earlier, later, rfl, rfl⟩, _⟩, _, opened⟩ := opened
  have before := layers.after earlier fun other member =>
    proper other (List.mem_append_left _ member)
  have now := before.handle (proper call (List.mem_append_right earlier List.mem_cons_self))
  have member := mem_scopes opened
  refine ⟨now.called member, ?_, (now.kinded scope member).2⟩
  refine (now.layered scope member).mono fun triple told => ?_
  rw [after_call]
  exact kept_after later told

/-- Rules for packages and the classes in them. -/
def classRules : Ontology :=
  .ofRelations
    [⟨EntityKind.package.pattern, Predicate.subClassOf.uri, .resource EntityKind.package.uri⟩,
      ⟨EntityKind.classType.pattern, Predicate.subClassOf.uri, .resource EntityKind.classType.uri⟩,
      Ontology.linkRule .package (.contains .package) .package,
      Ontology.linkRule .package (.contains .classType) .classType,
      Ontology.linkRule .classType (.contains .classType) .classType,
      Ontology.noteRule .classType .hasModifiers]

theorem layers_start (model : Model PlainStore) (date : String) : (start model date).Layers :=
  ⟨tracks_start model date, kinded_start model date, nofun⟩

end Builder

end CodeFacts
