import CodeFacts.Model
import CodeFacts.Modifier

/-!
The additions of one call. They are made one after the other, each seeing those before it; when one
is refused, all that were new are taken back.
-/

namespace CodeFacts

/-- One addition of a call. References to types are looked up when their turn comes. -/
inductive Write where
  | resource (subject : String) (predicate : Predicate) (object : String)
  | literal (subject : String) (predicate : Predicate) (value : Value)
  | elements (subject : String) (predicate : Predicate) (values : List Value)
  | resourceType (subject : String) (predicate : Predicate) (type : TypeRef)
  | literalType (subject : String) (predicate : Predicate) (type : TypeRef)
  | refuse (fault : Fault)

/-- The model while the additions of a call are made, the triples it did not have before, newest
first, and the type names met that nothing is known under. -/
structure Draft (σ : Type) where
  model : Model σ
  added : List Triple
  unknown : List String

namespace Draft

variable {σ : Type} [TripleStore σ]

def start (model : Model σ) : Draft σ := ⟨model, [], []⟩

def holds (store : σ) (triple : Triple) : Bool :=
  decide (triple ∈ TripleStore.search store
    ⟨some triple.subject, some triple.predicate, some triple.object⟩)

/-- The draft after an addition of some triples to its store. -/
def commit (draft : Draft σ) (triples : List Triple) (store : σ) : Draft σ :=
  let new := triples.filter fun triple => !holds draft.model.store triple
  { draft with
    model := { draft.model with store }
    added := new.reverse ++ draft.added }

def addResource (draft : Draft σ) (subject : String) (predicate : Predicate) (object : String) :
    Except Fault (Draft σ) := do
  let store ← draft.model.ontology.addResource draft.model.store (.text subject)
    (.text predicate.uri) (.text object)
  return draft.commit [⟨subject, predicate.uri, object, false⟩] store

/-- The literal triples of the values that are texts. -/
def literalTriples (subject : String) (predicate : Predicate) (values : List Value) : List Triple :=
  values.filterMap fun
    | .text value => some ⟨subject, predicate.uri, value, true⟩
    | _ => none

def addLiteral (draft : Draft σ) (subject : String) (predicate : Predicate) (value : Value) :
    Except Fault (Draft σ) := do
  let store ← draft.model.ontology.addLiteral draft.model.store (.text subject)
    (.text predicate.uri) value
  return draft.commit (literalTriples subject predicate [value]) store

def addElements (draft : Draft σ) (subject : String) (predicate : Predicate)
    (values : List Value) : Except Fault (Draft σ) := do
  let store ← draft.model.ontology.addCollection draft.model.store (.text subject)
    (.text predicate.uri) (.list values)
  return draft.commit (literalTriples subject predicate values) store

/-- The text of a reference, and the draft with its name noted if nothing is known under it. -/
def resolve (draft : Draft σ) (type : TypeRef) : Except Fault (String × Draft σ) := do
  let (text, unknown) ← draft.model.resolve type
  return (text, { draft with unknown := draft.unknown ++ unknown.toList })

def write (draft : Draft σ) : Write → Except Fault (Draft σ)
  | .resource subject predicate object => draft.addResource subject predicate object
  | .literal subject predicate value => draft.addLiteral subject predicate value
  | .elements subject predicate values => draft.addElements subject predicate values
  | .resourceType subject predicate type => do
      let (object, next) ← draft.resolve type
      next.addResource subject predicate object
  | .literalType subject predicate type => do
      let (value, next) ← draft.resolve type
      next.addLiteral subject predicate (.text value)
  | .refuse fault => .error fault

/-- The draft after additions up to the first that is refused, and why that one is. -/
def writeAll (draft : Draft σ) : List Write → Draft σ × Option Fault
  | [] => (draft, none)
  | first :: rest =>
      match draft.write first with
      | .ok next => next.writeAll rest
      | .error fault => (draft, some fault)

/-- The model with all that the call added taken back, the newest first. -/
def undo (draft : Draft σ) : Model σ :=
  { draft.model with store := draft.added.foldl TripleStore.erase draft.model.store }

end Draft

/-- The model after all additions of a call, with the type names met that nothing is known under,
or the model as it was and why an addition was refused. -/
def Model.writeAll {σ : Type} [TripleStore σ] (model : Model σ) (writes : List Write) :
    Model σ × Except Fault (List String) :=
  match (Draft.start model).writeAll writes with
  | (draft, none) => (draft.model, .ok draft.unknown)
  | (draft, some fault) => (draft.undo, .error fault)

end CodeFacts
