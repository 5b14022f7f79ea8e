import CodeFacts.Ontology.Profile
import CodeFacts.Proofs.Store.Edit
import CodeFacts.Proofs.View

/-!
A call that is refused leaves the model as it was. Every addition puts what is new at the end of
the store and remembers it, so taking back what is remembered restores the store to the letter.
-/

namespace CodeFacts

/-- The text a reference is stored as, empty where none is found. -/
def Model.storedText {σ : Type} [TripleStore σ] (model : Model σ) (type : TypeRef) : String :=
  match model.resolve type with
  | .ok (text, _) => text
  | .error _ => ""

namespace Write

/-- The predicate of an addition, which a refusal has not. -/
def predicate? : Write → Option Predicate
  | .resource _ predicate _ | .literal _ predicate _ | .elements _ predicate _
  | .resourceType _ predicate _ | .literalType _ predicate _ => some predicate
  | .refuse _ => none

/-- The triples of an addition that is not refused, where references are stored as some texts. -/
def triples (stored : TypeRef → String) : Write → List Triple
  | .resource subject predicate object => [⟨subject, predicate.uri, object, false⟩]
  | .literal subject predicate value => Draft.literalTriples subject predicate [value]
  | .elements subject predicate values => Draft.literalTriples subject predicate values
  | .resourceType subject predicate type => [⟨subject, predicate.uri, stored type, false⟩]
  | .literalType subject predicate type => [⟨subject, predicate.uri, stored type, true⟩]
  | .refuse _ => []

theorem mem_literalTriples {subject : String} {predicate : Predicate} {values : List Value}
    {triple : Triple} : triple ∈ Draft.literalTriples subject predicate values ↔
      ∃ text, .text text ∈ values ∧ ⟨subject, predicate.uri, text, true⟩ = triple := by
  rw [Draft.literalTriples, List.mem_filterMap]
  constructor
  · rintro ⟨value, member, made⟩
    cases value with
    | text text => exact ⟨text, member, Option.some.inj made⟩
    | _ => cases made
  · rintro ⟨text, member, rfl⟩
    exact ⟨.text text, member, rfl⟩

theorem predicate_of_mem {first : Write} {stored : TypeRef → String} {triple : Triple}
    (member : triple ∈ first.triples stored) :
    ∃ predicate ∈ first.predicate?, triple.predicate = predicate.uri := by
  cases first with
  | resource | resourceType | literalType =>
      rw [List.mem_singleton.mp member]
      exact ⟨_, rfl, rfl⟩
  | literal | elements =>
      obtain ⟨text, _, rfl⟩ := mem_literalTriples.mp member
      exact ⟨_, rfl, rfl⟩
  | refuse => cases member

end Write

namespace Draft

/-! What an addition does to a draft, whatever its store. -/

section

variable {σ : Type} [TripleStore σ] {draft next : Draft σ}

/-- The draft with some checked triples added to its store, and those that are new remembered. -/
def Adds (draft next : Draft σ) (triples : List Triple) : Prop :=
  (∀ triple ∈ triples, Store.WellTermed triple) ∧
    next = draft.commit triples (triples.foldl TripleStore.insert draft.model.store)

theorem addResource_ok {subject object : String} {predicate : Predicate}
    (added : draft.addResource subject predicate object = .ok next) :
    draft.Adds next [⟨subject, predicate.uri, object, false⟩] := by
  simp only [addResource, Ontology.addResource, Store.addResource, Steps.bind_ok_iff,
    Steps.pure_ok_iff, Steps.map_ok_iff] at added
  obtain ⟨_, ⟨_, _, triple, made, rfl⟩, rfl⟩ := added
  have termed := Store.wellTermed_of_resourceTriple made
  simp only [Store.resourceTriple, Steps.bind_ok_iff, Steps.pure_ok_iff] at made
  obtain ⟨_, first, _, second, _, third, rfl⟩ := made
  obtain rfl := Store.checkTerm_text_ok first
  obtain rfl := Store.checkTerm_text_ok second
  obtain rfl := Store.checkTerm_text_ok third
  exact ⟨by simpa using termed, rfl⟩

theorem literalTriple_ok {subject : String} {predicate : Predicate} {value : Value}
    {triple : Triple}
    (made : Store.literalTriple (.text subject) (.text predicate.uri) value = .ok triple) :
    ∃ text, value = .text text ∧ triple = ⟨subject, predicate.uri, text, true⟩ := by
  simp only [Store.literalTriple, Steps.bind_ok_iff, Steps.pure_ok_iff] at made
  obtain ⟨_, first, _, second, text, third, rfl⟩ := made
  obtain rfl := Store.checkTerm_text_ok first
  obtain rfl := Store.checkTerm_text_ok second
  cases value <;> cases third
  exact ⟨_, rfl, rfl⟩

theorem literalTriples_eq {subject : String} {predicate : Predicate} {values : List Value}
    {triples : List Triple}
    (made : values.mapM (Store.literalTriple (.text subject) (.text predicate.uri)) =
      .ok triples) :
    literalTriples subject predicate values = triples := by
  have stepwise := Steps.mapM_ok_iff.mp made
  clear made
  induction stepwise with
  | nil => rfl
  | cons first _ ih =>
      obtain ⟨text, rfl, rfl⟩ := literalTriple_ok first
      exact congrArg _ ih

theorem addLiteral_ok {subject : String} {predicate : Predicate} {value : Value}
    (added : draft.addLiteral subject predicate value = .ok next) :
    draft.Adds next (literalTriples subject predicate [value]) := by
  simp only [addLiteral, Ontology.addLiteral, Store.addLiteral, Steps.bind_ok_iff,
    Steps.pure_ok_iff, Steps.map_ok_iff] at added
  obtain ⟨_, ⟨_, _, triple, made, rfl⟩, rfl⟩ := added
  have termed := Store.wellTermed_of_literalTriple made
  obtain ⟨text, rfl, rfl⟩ := literalTriple_ok made
  exact ⟨by simpa [literalTriples] using termed, rfl⟩

theorem addElements_ok {subject : String} {predicate : Predicate} {values : List Value}
    (added : draft.addElements subject predicate values = .ok next) :
    draft.Adds next (literalTriples subject predicate values) := by
  simp only [addElements, Ontology.addCollection, Store.addCollection, Value.items?,
    Steps.bind_ok_iff, Steps.pure_ok_iff] at added
  obtain ⟨_, ⟨_, _, triples, made, rfl⟩, rfl⟩ := added
  rw [literalTriples_eq made]
  refine ⟨?_, rfl⟩
  intro triple member
  obtain ⟨item, _, literal⟩ := Steps.mem_of_mapM_ok made member
  exact Store.wellTermed_of_literalTriple literal

/-- An addition that is not refused adds its triples, checked; the names it met are noted before. -/
theorem write_ok {first : Write} (written : draft.write first = .ok next) :
    ∃ unknown, { draft with unknown }.Adds next (first.triples draft.model.storedText) := by
  have stored {type : TypeRef} {text : String} {unknown : Option String}
      (resolved : draft.model.resolve type = .ok (text, unknown)) :
      draft.model.storedText type = text := by
    rw [Model.storedText, resolved]
  cases first with
  | resource => exact ⟨draft.unknown, addResource_ok written⟩
  | literal => exact ⟨draft.unknown, addLiteral_ok written⟩
  | elements => exact ⟨draft.unknown, addElements_ok written⟩
  | resourceType =>
      simp only [write, resolve, Steps.bind_ok_iff, Steps.pure_ok_iff] at written
      obtain ⟨_, ⟨_, resolved, rfl⟩, added⟩ := written
      rw [Write.triples, stored resolved]
      exact ⟨_, addResource_ok added⟩
  | literalType =>
      simp only [write, resolve, Steps.bind_ok_iff, Steps.pure_ok_iff] at written
      obtain ⟨_, ⟨_, resolved, rfl⟩, added⟩ := written
      rw [Write.triples, stored resolved]
      exact ⟨_, addLiteral_ok added⟩
  | refuse => cases written

end

/-- A draft of a call on a model: the store has kept all it had in its place, what was remembered
is new, and what came behind was remembered. -/
structure Extends (model : Model PlainStore) (draft : Draft PlainStore) : Prop where
  same : { draft.model with store := model.store } = model
  kept : ∃ new, draft.model.store.triples = model.store.triples ++ new ∧
    ∀ triple ∈ new, triple ∈ draft.added
  fresh : ∀ triple ∈ draft.added, triple ∉ model.store.triples
  termed : ∀ triple ∈ draft.added, Store.WellTermed triple

variable {model : Model PlainStore} {draft next : Draft PlainStore}

theorem extends_start (model : Model PlainStore) : (start model).Extends model where
  same := rfl
  kept := ⟨[], by simp [start], by simp⟩
  fresh := by simp [start]
  termed := by simp [start]

theorem holds_iff (store : PlainStore) (triple : Triple) :
    holds store triple = true ↔ triple ∈ store.triples := by
  simp [holds, TripleStore.search, Pattern.holds, agrees]

theorem mem_added_commit (draft : Draft PlainStore) (triples : List Triple) (store : PlainStore)
    (triple : Triple) :
    triple ∈ (draft.commit triples store).added ↔
      (triple ∈ triples ∧ triple ∉ draft.model.store.triples) ∨ triple ∈ draft.added := by
  simp [commit, ← holds_iff]

theorem Extends.adds (extended : draft.Extends model) {triples : List Triple}
    (added : draft.Adds next triples) : next.Extends model := by
  obtain ⟨termed, rfl⟩ := added
  obtain ⟨new, kept, remembered⟩ := extended.kept
  have old : ∀ triple ∈ model.store.triples, triple ∈ draft.model.store.triples := by
    intro triple member
    rw [kept]
    exact List.mem_append_left new member
  obtain ⟨more, behind, absent⟩ := PlainStore.insertAll_extends triples draft.model.store
  refine ⟨extended.same, ⟨new ++ more, ?_, ?_⟩, ?_, ?_⟩
  · rw [← List.append_assoc, ← kept]
    exact behind
  · intro triple member
    rw [mem_added_commit]
    rcases List.mem_append.mp member with earlier | now
    · exact Or.inr (remembered triple earlier)
    · exact Or.inl (absent triple now)
  · intro triple member stored
    rcases (mem_added_commit _ _ _ _).mp member with ⟨_, missing⟩ | earlier
    · exact missing (old triple stored)
    · exact extended.fresh triple earlier stored
  · intro triple member
    rcases (mem_added_commit _ _ _ _).mp member with ⟨now, _⟩ | earlier
    · exact termed triple now
    · exact extended.termed triple earlier

theorem Extends.write (extended : draft.Extends model) {first : Write}
    (written : draft.write first = .ok next) : next.Extends model := by
  obtain ⟨unknown, added⟩ := write_ok written
  have noted : { draft with unknown := unknown }.Extends model :=
    ⟨extended.same, extended.kept, extended.fresh, extended.termed⟩
  exact noted.adds added

theorem Extends.writeAll (writes : List Write) (extended : draft.Extends model) :
    (draft.writeAll writes).1.Extends model := by
  induction writes generalizing draft with
  | nil => exact extended
  | cons first rest ih =>
      unfold Draft.writeAll
      cases written : draft.write first with
      | error fault => exact extended
      | ok next => exact ih (extended.write written)

theorem Extends.undo_eq (extended : draft.Extends model) : draft.undo = model := by
  obtain ⟨new, kept, remembered⟩ := extended.kept
  have restored : draft.added.foldl TripleStore.erase draft.model.store = model.store := by
    apply PlainStore.ext
    rw [Store.triples_eraseAll, kept, List.filter_append]
    have before : model.store.triples.filter (· ∉ draft.added) = model.store.triples := by
      rw [List.filter_eq_self]
      intro triple member
      exact decide_eq_true fun taken => extended.fresh triple taken member
    have behind : new.filter (· ∉ draft.added) = [] := by
      rw [List.filter_eq_nil_iff]
      intro triple member
      simpa using remembered triple member
    rw [before, behind, List.append_nil]
  rw [undo, restored]
  exact extended.same

/-- The removals that take a call back are all accepted. -/
theorem Extends.removals_eq_undo (extended : draft.Extends model) :
    draft.added.foldlM (fun store triple => Store.edit store (Store.removal triple))
      draft.model.store = .ok draft.undo.store :=
  Store.removals_eq_eraseAll extended.termed draft.model.store

end Draft

theorem Model.writeAll_refused {model : Model PlainStore} {writes : List Write} {fault : Fault}
    (refused : (model.writeAll writes).2 = .error fault) : (model.writeAll writes).1 = model := by
  have extended := Draft.Extends.writeAll writes (Draft.extends_start model)
  unfold writeAll at refused ⊢
  generalize (Draft.start model).writeAll writes = drafted at extended refused ⊢
  obtain ⟨draft, outcome⟩ := drafted
  cases outcome with
  | none => cases refused
  | some cause => exact extended.undo_eq

namespace Builder

/-- The path on which segments are put: where one is refused, those before it stay. -/
def pathLeft (kind : EntityKind) (path : Identifier) (segments : List String) : Identifier :=
  match pushAll kind path segments with
  | (reached, some _) => reached
  | (_, none) => path

/-- The path a refused call leaves. -/
def leftPath {σ : Type} [TripleStore σ] (builder : Builder σ) : Call → Identifier
  | .startPackage name =>
      match builder.phase, builder.packageName name with
      | .parsing, .ok (_, segments) => pathLeft .package builder.path segments
      | _, _ => builder.path
  | _ => builder.path

/-- What a call that is refused comes to: the builder with some path, and nothing told of types
that nothing is known under. -/
def Leaves {σ : Type} (builder : Builder σ) (path : Identifier)
    (result : Reply × Builder σ) : Prop :=
  ∀ fault, result.1.outcome = .error fault →
    result.2 = { builder with path } ∧ ∀ name, Notice.unresolvedType name ∉ result.1.notices

section

variable {σ : Type} {builder : Builder σ}

theorem leaves_accepted {path : Identifier} {notices : List Notice} {next : Builder σ} :
    builder.Leaves path (.accepted notices, next) := by
  intro fault refused
  cases refused

theorem leaves_refuse {fault : Fault} {notices : List Notice}
    (silent : ∀ name, Notice.unresolvedType name ∉ notices) :
    builder.Leaves builder.path (builder.refuse fault notices) := by
  intro _ _
  exact ⟨rfl, silent⟩

theorem leaves_refuse_silently {fault : Fault} :
    builder.Leaves builder.path (builder.refuse fault []) :=
  leaves_refuse fun _ => List.not_mem_nil

theorem simpleName_silent {given : Value} {simple : String} {notices : List Notice}
    (named : builder.simpleName given = .ok (simple, notices)) (name : String) :
    Notice.unresolvedType name ∉ notices := by
  simp only [simpleName, Steps.bind_ok_iff] at named
  obtain ⟨text, _, named⟩ := named
  split at named
  · cases named
  · cases named
    unfold discrepancies
    dsimp only
    split <;> simp

theorem leaves_closeScope [TripleStore σ] (kind : EntityKind) :
    builder.Leaves builder.path (builder.closeScope kind) := by
  unfold closeScope
  split
  · exact leaves_refuse_silently
  · exact leaves_refuse_silently
  · dsimp only
    split
    · exact leaves_refuse_silently
    · split
      · exact leaves_accepted
      · split
        · exact leaves_refuse_silently
        · exact leaves_accepted

end

variable {builder : Builder PlainStore}

theorem leaves_write {notices : List Notice} {writes : List Write}
    {after : Builder PlainStore → Builder PlainStore}
    (silent : ∀ name, Notice.unresolvedType name ∉ notices) :
    builder.Leaves builder.path (builder.write notices writes after) := by
  unfold write
  cases outcome : (builder.model.writeAll writes).2 with
  | ok unknown =>
      rw [← Prod.eta (builder.model.writeAll writes), outcome]
      exact leaves_accepted
  | error fault =>
      rw [← Prod.eta (builder.model.writeAll writes), outcome, Model.writeAll_refused outcome]
      exact leaves_refuse silent

theorem leaves_openScope {notices : List Notice} {kind : EntityKind} {segments : List String}
    {name : String} {writes : Identifier → List Write} {path : Identifier}
    (left : path = pathLeft kind builder.path segments)
    (silent : ∀ name, Notice.unresolvedType name ∉ notices) :
    builder.Leaves path (builder.openScope notices kind segments name writes) := by
  unfold pathLeft at left
  unfold openScope
  generalize pushAll kind builder.path segments = pushed at left ⊢
  obtain ⟨reached, outcome⟩ := pushed
  cases outcome with
  | none =>
      rw [left]
      exact leaves_write silent
  | some fault =>
      rw [left]
      intro _ _
      exact ⟨rfl, silent⟩

theorem leaves_openType {kind : EntityKind} {what : String} {name : Value}
    {writes : (container id : Identifier) → List Write} :
    builder.Leaves builder.path (builder.openType kind what name writes) := by
  unfold openType
  split
  · exact leaves_refuse_silently
  · split
    · exact leaves_refuse_silently
    · rename_i simple notices named
      refine leaves_openScope ?_ (simpleName_silent named)
      -- A single segment that is refused leaves nothing before it.
      unfold pathLeft pushAll
      cases builder.path.child simple kind.key <;> rfl

theorem leaves_declare {kind : EntityKind} {what : String} {kinds : List EntityKind}
    {named : Except Fault (String × List Notice)}
    {writes : (container id : Identifier) → List Write}
    (silent : ∀ simple notices, named = .ok (simple, notices) →
      ∀ name, Notice.unresolvedType name ∉ notices) :
    builder.Leaves builder.path (builder.declare kind what kinds named writes) := by
  unfold declare
  split
  · exact leaves_refuse_silently
  · exact leaves_refuse_silently
  · split
    · exact leaves_refuse_silently
    · split
      · exact leaves_refuse_silently
      · split
        · exact leaves_refuse (silent _ _ rfl)
        · exact leaves_write (silent _ _ rfl)

theorem leaves_startPackage (name : Value) :
    builder.Leaves (builder.leftPath (.startPackage name)) (builder.startPackage name) := by
  simp only [startPackage, leftPath]
  cases builder.phase with
  | idle => exact leaves_refuse_silently
  | parsing =>
      cases builder.packageName name with
      | error fault => exact leaves_refuse_silently
      | ok named => exact leaves_openScope rfl fun _ => List.not_mem_nil

theorem leaves_handle (builder : Builder PlainStore) (call : Call) :
    builder.Leaves (builder.leftPath call) (builder.handle call) := by
  cases call with
  | startParsing library location =>
      simp only [handle, startParsing]
      split
      · exact leaves_refuse_silently
      · split
        · exact leaves_refuse_silently
        · exact leaves_accepted
  | endParsing =>
      simp only [handle, endParsing]
      split
      · exact leaves_refuse_silently
      · exact leaves_refuse_silently
      · exact leaves_refuse_silently
      · exact leaves_write fun _ => List.not_mem_nil
  | startUnit name =>
      simp only [handle, startUnit]
      split
      · exact leaves_refuse_silently
      · exact leaves_refuse_silently
      · exact leaves_accepted
  | endUnit =>
      simp only [handle, endUnit]
      split
      · exact leaves_refuse_silently
      · exact leaves_refuse_silently
      · split
        · exact leaves_refuse_silently
        · exact leaves_accepted
  | startPackage name => exact leaves_startPackage name
  | endPackage => exact leaves_closeScope .package
  | startClass => exact leaves_openType
  | endClass => exact leaves_closeScope .classType
  | startInterface => exact leaves_openType
  | endInterface => exact leaves_closeScope .interface
  | startEnumeration => exact leaves_openType
  | endEnumeration => exact leaves_closeScope .enumeration
  | «attribute» => exact leaves_declare fun _ _ => simpleName_silent
  | method => exact leaves_declare fun _ _ => simpleName_silent
  | constructor =>
      refine leaves_declare ?_
      intro _ _ same name
      cases same
      exact List.not_mem_nil
  | parseError => exact leaves_accepted
  | parsedEntry => exact leaves_accepted
  | classDoc => exact leaves_accepted
  | methodDoc =>
      simp only [handle, noteMethodDoc]
      split
      · exact leaves_accepted
      · exact leaves_refuse_silently

theorem eq_of_map_eq {builder next : Builder MemoryStore} {path : Identifier}
    (same : next.map MemoryStore.view = { builder.map MemoryStore.view with path }) :
    next = { builder with
      path := next.path
      model := { builder.model with store := next.model.store } } := by
  obtain ⟨⟨ontology, symbols, store⟩, date, phase, library, location, unit, unitDepth,
    unresolved, errors, reached, scopes⟩ := next
  simp only [map, Model.map, mk.injEq, Model.mk.injEq] at same ⊢
  obtain ⟨⟨ontology, symbols, _⟩, date, phase, library, location, unit, unitDepth, unresolved,
    errors, _, scopes⟩ := same
  simp only [and_self, *]

/-- A refused call changes no triple and nothing of the state but the path, whatever was added
before it was refused, and tells of no type that nothing is known under. -/
theorem refused_changes_nothing (builder : Builder MemoryStore) (call : Call)
    (refused : (builder.handle call).1.isAccepted = false) :
    let next := (builder.handle call).2
    next.model.store.triples = builder.model.store.triples ∧
      (∀ pattern, next.model.store.search pattern = builder.model.store.search pattern) ∧
      next = { builder with
        path := next.path
        model := { builder.model with store := next.model.store } } ∧
      ∀ name, Notice.unresolvedType name ∉ (builder.handle call).1.notices := by
  intro next
  obtain ⟨fault, outcome⟩ := Reply.isAccepted_eq_false_iff.mp refused
  have plain := leaves_handle (builder.map MemoryStore.view) call fault
  rw [handle_map] at plain
  obtain ⟨same, silent⟩ := plain outcome
  have listed : next.model.store.triples = builder.model.store.triples :=
    congrArg (fun state : Builder PlainStore => state.model.store.triples) same
  refine ⟨listed, ?_, eq_of_map_eq same, silent⟩
  intro pattern
  rw [MemoryStore.search, next.model.store.sound.search_eq, MemoryStore.search,
    builder.model.store.sound.search_eq]
  exact congrArg (List.filter pattern.holds) listed

/-- A run just begun, over a store that has a class already and rules without visibilities. -/
def classKnown : Builder MemoryStore :=
  Handler.after
    (Builder.start
      { ontology := (Ontology.empty.defineAll
          [⟨EntityKind.classType.pattern, Predicate.subClassOf.uri,
              .resource EntityKind.classType.uri⟩,
            Ontology.noteRule .classType .hasModifiers]).1
        symbols := .empty
        store := MemoryStore.empty.insert
          ⟨resource "jclass:A", Predicate.subClassOf.uri, EntityKind.classType.uri, false⟩ }
      "2024-01-01")
    [.startParsing (.text "lib") (.text "/lib")]

/-- The class again, refused at its visibility. -/
def classAgain : Call := .startClass (.text "public") (.text "A") [] none []

theorem classAgain_changes_nothing :
    (classKnown.handle classAgain).1.isAccepted = false ∧
      (classKnown.handle classAgain).2.model.store.triples = classKnown.model.store.triples := by
  have refused : (classKnown.handle classAgain).1.isAccepted = false := by
    have same := congrArg Prod.fst (handle_map MemoryStore.view classKnown classAgain)
    rw [← same, classKnown, ← after_map]
    decide +kernel
  exact ⟨refused, (refused_changes_nothing classKnown classAgain refused).1⟩

end Builder

end CodeFacts
