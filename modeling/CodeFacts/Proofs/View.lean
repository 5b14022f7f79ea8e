import CodeFacts.Proofs.Builder.Along
import CodeFacts.Proofs.Store.Plain

/-!
A builder takes nothing from its store but answers. Along a map between stores that keeps every
answer, each part of a call goes on in the image as it does in the original.
-/

namespace CodeFacts

variable {σ τ : Type} [TripleStore σ] [TripleStore τ] (view : StoreMap σ τ)

/-- The state of a handler after some calls, accepted or refused. -/
def Handler.after {η : Type} [Handler η] (state : η) (calls : List Call) : η :=
  calls.foldl (fun state call => (Handler.handle call state).2) state

/-- The replies to some calls, accepted or refused, each with the state after it. -/
def Handler.trace {η : Type} [Handler η] (state : η) : List Call → List (Reply × η)
  | [] => []
  | call :: rest =>
      let (reply, next) := Handler.handle call state
      (reply, next) :: Handler.trace next rest

theorem Handler.trace_append {η : Type} [Handler η] (state : η) (earlier later : List Call) :
    trace state (earlier ++ later) = trace state earlier ++ trace (after state earlier) later := by
  induction earlier generalizing state with
  | nil => rfl
  | cons call rest ih => exact congrArg (_ :: ·) (ih _)

namespace Ontology

theorem addResource_map (ontology : Ontology) (store : σ) (subject predicate object : Value) :
    ontology.addResource (view.map store) subject predicate object =
      (ontology.addResource store subject predicate object).map view.map := by
  unfold addResource Store.addResource
  cases (ontology.judgeObject subject predicate object).mapError
    (asViolation subject predicate object) with
  | error fault => rfl
  | ok _ =>
      cases Store.resourceTriple subject predicate object with
      | error fault => rfl
      | ok triple => exact congrArg Except.ok (view.insert_map store triple)

theorem addLiteral_map (ontology : Ontology) (store : σ) (subject predicate literal : Value) :
    ontology.addLiteral (view.map store) subject predicate literal =
      (ontology.addLiteral store subject predicate literal).map view.map := by
  unfold addLiteral Store.addLiteral
  cases (ontology.judgeLiteral subject predicate).mapError
    (asViolation subject predicate literal) with
  | error fault => rfl
  | ok _ =>
      cases Store.literalTriple subject predicate literal with
      | error fault => rfl
      | ok triple => exact congrArg Except.ok (view.insert_map store triple)

theorem addCollection_map (ontology : Ontology) (store : σ) (subject predicate : Value)
    (values : List Value) :
    ontology.addCollection (view.map store) subject predicate (.list values) =
      (ontology.addCollection store subject predicate (.list values)).map view.map := by
  simp only [addCollection, Value.items?, Store.addCollection]
  cases (ontology.judgeObject subject predicate (.list values)).mapError
    (asViolation subject predicate (.list values)) with
  | error fault => rfl
  | ok _ =>
      cases values.mapM (Store.literalTriple subject predicate) with
      | error fault => rfl
      | ok triples => exact congrArg Except.ok (view.insertAll_map triples store)

end Ontology

namespace Model

def map (model : Model σ) : Model τ where
  ontology := model.ontology
  symbols := model.symbols
  store := view.map model.store

@[simp] theorem map_ontology (model : Model σ) : (model.map view).ontology = model.ontology := rfl

@[simp] theorem map_symbols (model : Model σ) : (model.map view).symbols = model.symbols := rfl

@[simp] theorem map_store (model : Model σ) : (model.map view).store = view.map model.store := rfl

@[simp] theorem hasKind_map (model : Model σ) (text : String) (kind : EntityKind) :
    (model.map view).hasKind text kind = model.hasKind text kind := by
  simp [hasKind]

@[simp] theorem declaredAs_map (model : Model σ) (enclosing : Option Identifier) (name : String)
    (kinds : List EntityKind) :
    (model.map view).declaredAs enclosing name kinds = model.declaredAs enclosing name kinds := by
  induction kinds with
  | nil => rfl
  | cons kind rest ih => simp [declaredAs, ih]

@[simp] theorem declaredBySegments_map (model : Model σ) (segments : List String) :
    (model.map view).declaredBySegments segments = model.declaredBySegments segments := by
  induction segments with
  | nil => rfl
  | cons simple outer ih => simp [declaredBySegments, ih]

@[simp] theorem declaredType_map (model : Model σ) (name : String) :
    (model.map view).declaredType name = model.declaredType name :=
  declaredBySegments_map view model _

@[simp] theorem enclosingType_map (model : Model σ) (name : String) :
    (model.map view).enclosingType name = model.enclosingType name := by
  simp [enclosingType]

@[simp] theorem bind_map (model : Model σ) (type : TypeRef) :
    (model.map view).bind type = model.bind type := by
  induction type with
  | primitive name => rfl
  | named kind name enclosing =>
      cases enclosing with
      | none => simp [bind]
      | some enclosing => rfl
  | array element dimensions ih => simp [bind, ih]

@[simp] theorem isResolved_map (model : Model σ) (type : TypeRef) :
    (model.map view).isResolved type = model.isResolved type := by
  simp [isResolved]

@[simp] theorem resolve_map (model : Model σ) (type : TypeRef) :
    (model.map view).resolve type = model.resolve type := by
  simp [resolve]

end Model

namespace Draft

def map (draft : Draft σ) : Draft τ where
  model := draft.model.map view
  added := draft.added
  unknown := draft.unknown

@[simp] theorem map_model (draft : Draft σ) : (draft.map view).model = draft.model.map view := rfl

theorem commit_map (draft : Draft σ) (triples : List Triple) (store : σ) :
    (draft.map view).commit triples (view.map store) = (draft.commit triples store).map view := by
  simp [commit, map, holds, Model.map]

theorem addResource_map (draft : Draft σ) (subject : String) (predicate : Predicate)
    (object : String) :
    (draft.map view).addResource subject predicate object =
      (draft.addResource subject predicate object).map (map view) := by
  unfold addResource
  rw [map_model, Model.map_ontology, Model.map_store, Ontology.addResource_map]
  cases draft.model.ontology.addResource draft.model.store (.text subject) (.text predicate.uri)
    (.text object) with
  | error fault => rfl
  | ok store => exact congrArg Except.ok (commit_map view draft _ store)

theorem addLiteral_map (draft : Draft σ) (subject : String) (predicate : Predicate)
    (value : Value) :
    (draft.map view).addLiteral subject predicate value =
      (draft.addLiteral subject predicate value).map (map view) := by
  unfold addLiteral
  rw [map_model, Model.map_ontology, Model.map_store, Ontology.addLiteral_map]
  cases draft.model.ontology.addLiteral draft.model.store (.text subject) (.text predicate.uri)
    value with
  | error fault => rfl
  | ok store => exact congrArg Except.ok (commit_map view draft _ store)

theorem addElements_map (draft : Draft σ) (subject : String) (predicate : Predicate)
    (values : List Value) :
    (draft.map view).addElements subject predicate values =
      (draft.addElements subject predicate values).map (map view) := by
  unfold addElements
  rw [map_model, Model.map_ontology, Model.map_store, Ontology.addCollection_map]
  cases draft.model.ontology.addCollection draft.model.store (.text subject)
    (.text predicate.uri) (.list values) with
  | error fault => rfl
  | ok store => exact congrArg Except.ok (commit_map view draft _ store)

theorem resolve_map (draft : Draft σ) (type : TypeRef) :
    (draft.map view).resolve type =
      (draft.resolve type).map fun (text, next) => (text, next.map view) := by
  unfold resolve
  rw [map_model, Model.resolve_map]
  cases draft.model.resolve type <;> rfl

theorem write_map (draft : Draft σ) (first : Write) :
    (draft.map view).write first = (draft.write first).map (map view) := by
  cases first with
  | resource subject predicate object => exact addResource_map view draft _ _ _
  | literal subject predicate value => exact addLiteral_map view draft _ _ _
  | elements subject predicate values => exact addElements_map view draft _ _ _
  | resourceType subject predicate type =>
      simp only [write, resolve_map]
      cases draft.resolve type with
      | error fault => rfl
      | ok resolved => exact addResource_map view resolved.2 _ _ _
  | literalType subject predicate type =>
      simp only [write, resolve_map]
      cases draft.resolve type with
      | error fault => rfl
      | ok resolved => exact addLiteral_map view resolved.2 _ _ _
  | refuse fault => rfl

theorem writeAll_map (writes : List Write) (draft : Draft σ) :
    (draft.map view).writeAll writes =
      ((draft.writeAll writes).1.map view, (draft.writeAll writes).2) := by
  induction writes generalizing draft with
  | nil => rfl
  | cons first rest ih =>
      unfold writeAll
      rw [write_map]
      cases draft.write first with
      | error fault => rfl
      | ok next => exact ih next

theorem undo_map (draft : Draft σ) : (draft.map view).undo = draft.undo.map view := by
  simp only [undo, map, Model.map, view.eraseAll_map]

end Draft

theorem Model.writeAll_map (model : Model σ) (writes : List Write) :
    (model.map view).writeAll writes =
      ((model.writeAll writes).1.map view, (model.writeAll writes).2) := by
  unfold Model.writeAll
  rw [show Draft.start (model.map view) = (Draft.start model).map view from rfl,
    Draft.writeAll_map]
  obtain ⟨draft, fault⟩ := (Draft.start model).writeAll writes
  cases fault with
  | none => rfl
  | some fault => simp only [Draft.undo_map]

theorem Model.follows_map (model : Model σ) : model.Follows (map view) True where
  finds := view.search_map model.store
  adds := fun writes _ => model.writeAll_map view writes

namespace Builder

def map (builder : Builder σ) : Builder τ where
  model := builder.model.map view
  date := builder.date
  phase := builder.phase
  library := builder.library
  location := builder.location
  unit := builder.unit
  unitDepth := builder.unitDepth
  unresolved := builder.unresolved
  errors := builder.errors
  path := builder.path
  scopes := builder.scopes

@[simp] theorem map_model (builder : Builder σ) :
    (builder.map view).model = builder.model.map view := rfl

theorem start_map (ontology : Ontology) (symbols : SymbolTable) (store : σ) (date : String) :
    (start ⟨ontology, symbols, store⟩ date).map view =
      start ⟨ontology, symbols, view.map store⟩ date := rfl

/-- A builder over the image of a store replies as the builder over the store does, and goes on to
the image of its next state. -/
theorem handle_map (builder : Builder σ) (call : Call) :
    (builder.map view).handle call =
      ((builder.handle call).1, (builder.handle call).2.map view) :=
  handle_along (builder.model.follows_map view) (.inl rfl) (.inl trivial)

theorem after_map (calls : List Call) (builder : Builder σ) :
    Handler.after (builder.map view) calls = (Handler.after builder calls).map view := by
  induction calls generalizing builder with
  | nil => rfl
  | cons call rest ih =>
      have step : (builder.map view).handle call =
          ((builder.handle call).1, (builder.handle call).2.map view) :=
        handle_map view builder call
      show Handler.after ((builder.map view).handle call).2 rest = _
      rw [step]
      exact ih (builder.handle call).2

/-- What a store that a run filled answers, its image answers. -/
theorem search_after_map (calls : List Call) (builder : Builder σ) (pattern : Pattern) :
    TripleStore.search (Handler.after builder calls).model.store pattern =
      TripleStore.search (Handler.after (builder.map view) calls).model.store pattern := by
  rw [after_map]
  exact (view.search_map _ pattern).symm

end Builder

end CodeFacts
