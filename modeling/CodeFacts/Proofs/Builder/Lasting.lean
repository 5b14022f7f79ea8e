import CodeFacts.Proofs.Builder.Shadows
import CodeFacts.Proofs.Builder.Wider

/-!
What a run declared stays known. A type is resolved under the name of the scope that was opened for
it in every later state that reads the outer part of the name as it was read then.
-/

namespace CodeFacts

namespace Builder

section

variable {model : Model PlainStore} {scope : Scope}

/-- A scope of a type is found where its name is read inside of what it was opened in. -/
theorem Standing.resolved (stands : Standing model.store.triples scope)
    (type : scope.kind ∈ EntityKind.types)
    (around : model.symbols.knows scope.name = true ∨
      model.enclosingType scope.name = .ok scope.identifier.parent.asType?) :
    model.isResolved (.named .classType scope.name none) = .ok true := by
  show (if model.symbols.knows scope.name = true then _ else _) = _
  by_cases known : model.symbols.knows scope.name = true
  · rw [if_pos known]
  · rw [if_neg known]
    obtain ⟨outer, fragment, same, qualifier⟩ := Identifier.push_of_strongest stands.strongest
    have layered := stands.layered
    have around := around.resolve_left known
    rw [stands.called, same] at around ⊢
    rw [same] at layered
    rw [Identifier.parent_push] at around
    obtain ⟨id, found⟩ := Model.declaredType_of_enclosing layered type qualifier around
    rw [found]
    rfl

theorem Standing.enclosing (stands : Standing model.store.triples scope)
    (clear : model.Unshadowed scope.identifier) :
    model.enclosingType scope.name = .ok scope.identifier.parent.asType? := by
  obtain ⟨outer, fragment, same, _⟩ := Identifier.push_of_strongest stands.strongest
  have layered := stands.layered
  rw [stands.called]
  rw [same] at layered clear ⊢
  rw [Identifier.parent_push]
  exact Model.enclosingType_unshadowed layered clear

theorem Standing.unreported {builder : Builder PlainStore}
    (stands : Standing builder.model.store.triples scope) (type : scope.kind ∈ EntityKind.types)
    (call : Call) (clear : builder.model.symbols.knows scope.name = true ∨
      (builder.handle call).2.model.Unshadowed scope.identifier) :
    Notice.unresolvedType scope.name ∉ (builder.handle call).1.notices := by
  intro reported
  obtain ⟨_, unresolved⟩ := reported_handle builder call
  obtain ⟨between, before, after, unresolved⟩ := unresolved scope.name reported
  have still : Standing between.store.triples scope :=
    ⟨stands.called, stands.layered.mono before.kept, stands.strongest⟩
  have resolved := still.resolved type <| clear.imp
    (fun known => before.symbols ▸ known)
    (fun clear => still.enclosing (clear.of_leads after))
  rw [unresolved] at resolved
  cases resolved

end

/-- After any calls in which containers have proper names, whatever the rules, the names known from
outside and the store they began with: a type whose scope was opened is resolved under the dotted
name of the scope if that is known from outside or read inside of what the scope was opened in. It
is read there as long as all that is around it is alone under its name; and no call reports the name
unless what it adds puts an end to that. -/
theorem declared_stays_resolved (ontology : Ontology) (symbols : SymbolTable) (store : MemoryStore)
    (date : String) (calls : List Call) (proper : ∀ call ∈ calls, call.properlyNamed = true)
    (scope : Scope) (opened : (start ⟨ontology, symbols, store⟩ date).Opened calls scope)
    (type : scope.kind ∈ EntityKind.types) :
    let last := Handler.after (start ⟨ontology, symbols, store⟩ date) calls
    (symbols.knows scope.name = true ∨
        last.model.enclosingType scope.name = .ok scope.identifier.parent.asType? →
      last.model.isResolved (.named .classType scope.name none) = .ok true) ∧
    (last.model.Unshadowed scope.identifier →
      last.model.enclosingType scope.name = .ok scope.identifier.parent.asType?) ∧
    ∀ call, symbols.knows scope.name = true ∨
        (last.handle call).2.model.Unshadowed scope.identifier →
      Notice.unresolvedType scope.name ∉ (last.handle call).1.notices := by
  intro last
  let first := start ⟨ontology, symbols, store⟩ date
  have same : Handler.after (first.map MemoryStore.view) calls = last.map MemoryStore.view :=
    after_map MemoryStore.view calls first
  have stands := (layers_start (first.model.map MemoryStore.view) date).opened proper
    ((opened_map MemoryStore.view).mpr opened)
  have known := (leads_after calls (first.map MemoryStore.view)).symbols
  rw [same] at known
  have stands : Standing (last.map MemoryStore.view).model.store.triples scope := same ▸ stands
  have symbols_kept : (last.map MemoryStore.view).model.symbols = symbols := known
  refine ⟨fun around => ?_, fun clear => ?_, fun call clear => ?_⟩
  · have resolved := stands.resolved type
    rw [symbols_kept] at resolved
    simpa using resolved (by simpa using around)
  · have around := stands.enclosing (Model.unshadowed_map.mpr clear)
    simpa using around
  · have unreported := stands.unreported type call
    rw [symbols_kept, handle_map] at unreported
    exact unreported (clear.imp_right Model.unshadowed_map.mpr)

/-- A class of a package is resolved. -/
theorem classInPackage_resolved :
    let calls := [.startParsing (.text "lib") (.text "/lib"), .startPackage (.text "a"),
      .startClass .null (.text "B") [] none []]
    let first := start ⟨classRules, .empty, MemoryStore.empty⟩ "2024-01-01"
    ∃ scope, first.Opened calls scope ∧ scope.name = "a.B" ∧
      (Handler.after first calls).model.isResolved (.named .classType "a.B" none) = .ok true := by
  intro calls first
  let outer := Handler.after (first.map MemoryStore.view) (calls.take 2)
  let opening := Call.startClass .null (.text "B") [] none []
  have checked : (outer.handle opening).1.isAccepted = true ∧
      (outer.handle opening).2.scopeName = "a.B" ∧
      (outer.handle opening).2.container.parent.asType? = none ∧
      ((Handler.after (first.map MemoryStore.view) calls).model.enclosingType "a.B").toOption =
        some none := by
    decide +kernel
  obtain ⟨accepted, named, packaged, read⟩ := checked
  obtain ⟨scope, opened, kind, called, identified⟩ :=
    opened_innermost ⟨⟨calls.take 2, [], rfl, rfl⟩, accepted⟩ rfl
  have opened : first.Opened calls scope := (opened_map MemoryStore.view).mp opened
  have packaged : scope.identifier.parent.asType? = none :=
    (congrArg (fun id : Identifier => id.parent.asType?) identified).trans packaged
  have around : (Handler.after first calls).model.enclosingType "a.B" = .ok none := by
    rw [after_map, map_model, Model.enclosingType_map] at read
    exact Steps.ok_of_toOption read
  refine ⟨scope, opened, called.trans named, ?_⟩
  have resolved := (declared_stays_resolved classRules .empty MemoryStore.empty "2024-01-01" calls
    (by decide +kernel) scope opened (kind ▸ by decide)).1
  rw [called.trans named, packaged] at resolved
  exact resolved (.inr around)

/-- What is opened by calls that are accepted under some rules is opened under more. -/
theorem opened_under {σ : Type} [TripleStore σ] {many : Ontology} {builder : Builder σ}
    {calls : List Call} {scope : Scope} (within : builder.model.ontology.Within many)
    (accepted : (Handler.trace builder calls).all (·.1.isAccepted) = true)
    (opened : builder.Opened calls scope) : (builder.under many).Opened calls scope := by
  obtain ⟨_, call, name, ⟨⟨earlier, later, rfl, rfl⟩, passes⟩, told, opens⟩ := opened
  rw [Handler.trace_append, List.all_append, Bool.and_eq_true] at accepted
  have reached := after_under earlier within accepted.1
  have still_within : (Handler.after builder earlier).model.ontology.Within many := by
    rw [after_ontology]
    exact within
  have step := handle_under still_within passes
  refine ⟨_, call, name, ⟨⟨earlier, later, rfl, reached.symm⟩, ?_⟩, told, ?_⟩
  · rw [step]
    exact passes
  · rw [step]
    exact opens

/-- Rules for packages, and for classes that are told their visibility, all of them rules of the
profile. -/
def visibleClassRules : List Relation :=
  [EntityKind.package, .classType].map (fun kind =>
    ⟨kind.pattern, Predicate.subClassOf.uri, .resource kind.uri⟩) ++
  [Ontology.linkRule .package (.contains .package) .package,
    Ontology.linkRule .package (.contains .classType) .classType,
    Ontology.noteRule .classType .hasModifiers, Ontology.noteRule .classType .hasVisibility]

/-- A class that takes the name of the package around another hides it: what was declared is looked
for inside of the later class and is not found there. -/
theorem hiddenClass_unresolved :
    let calls := [.startParsing (.text "lib") (.text "/tmp/lib"), .startPackage (.text "a.b"),
      .startClass (.text "public") (.text "C") [] none [], .endClass, .endPackage,
      .startPackage (.text "a"), .startClass (.text "public") (.text "b") [] none []]
    let first := start ⟨.java, .empty, MemoryStore.empty⟩ "2024-01-01"
    (∀ call ∈ calls, call.properlyNamed = true) ∧
      (∃ scope, first.Opened calls scope ∧ scope.kind = .classType ∧ scope.name = "a.b.C") ∧
      (Handler.after first calls).model.isResolved (.named .classType "a.b.C" none) =
        .ok false := by
  intro calls first
  let few : Builder PlainStore :=
    start ⟨.ofRelations visibleClassRules, .empty, .empty⟩ "2024-01-01"
  let outer := Handler.after few (calls.take 2)
  let opening := Call.startClass (.text "public") (.text "C") [] none []
  have checked : (Handler.trace few calls).all (·.1.isAccepted) = true ∧
      (outer.handle opening).1.isAccepted = true ∧
      (outer.handle opening).2.scopeName = "a.b.C" ∧
      ((Handler.after few calls).model.isResolved (.named .classType "a.b.C" none)).toOption =
        some false := by
    decide +kernel
  obtain ⟨passes, accepted, named, unresolved⟩ := checked
  have within : few.model.ontology.Within .java := Ontology.within_java (by decide +kernel)
  have same : first.map MemoryStore.view = few.under .java :=
    (start_map MemoryStore.view _ _ _ _).trans (start_under _ _ _ _ _).symm
  obtain ⟨scope, opened, kind, called, _⟩ :=
    opened_innermost ⟨⟨calls.take 2, calls.drop 3, rfl, rfl⟩, accepted⟩ rfl
  have opened : first.Opened calls scope :=
    (opened_map MemoryStore.view).mp (same ▸ opened_under within passes opened)
  refine ⟨by decide +kernel, ⟨scope, opened, kind, called.trans named⟩, ?_⟩
  have still : (Handler.after (first.map MemoryStore.view) calls).model.isResolved
      (.named .classType "a.b.C" none) = .ok false := by
    rw [same, after_under calls within passes]
    exact (Model.isResolved_under _ _ _).trans (Steps.ok_of_toOption unresolved)
  rw [after_map, map_model, Model.isResolved_map] at still
  exact still

end Builder

end CodeFacts
