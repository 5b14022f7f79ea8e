import CodeFacts.Ontology.Gate
import CodeFacts.Symbols
import CodeFacts.TypeRef

/-!
Models: a store, the rules that guard it, and the names known from outside. A type is looked up by
its dotted name among the declarations in the store first and among the known names then; where an
outer part of the name is itself a type, the name is that of a type nested in it.
-/

namespace CodeFacts

/-- A store of facts, the rules for additions to it, and the type names known from outside. -/
structure Model (σ : Type) where
  ontology : Ontology
  symbols : SymbolTable
  store : σ

namespace Model

variable {σ : Type} [TripleStore σ]

/-- Whether the store says of an identifier that it is of a kind. -/
def hasKind (model : Model σ) (text : String) (kind : EntityKind) : Bool :=
  !(TripleStore.search model.store
    ⟨some text, some Predicate.subClassOf.uri, some kind.uri⟩).isEmpty

/-- The identifier of a type called by a dotted name, inside the type around it if there is one. -/
def candidate (enclosing : Option Identifier) (name : String) (kind : EntityKind) :
    Except Fault Identifier :=
  match enclosing with
  | some outer => outer.child (Dotted.simple name) kind.key
  | none => Identifier.ofTypeName name kind.key

/-- The first of some kinds under which a name is declared in the store. -/
def declaredAs (model : Model σ) (enclosing : Option Identifier) (name : String) :
    List EntityKind → Except Fault (Option Identifier)
  | [] => .ok none
  | kind :: rest => do
      let id ← candidate enclosing name kind
      if model.hasKind id.text kind then return some id
      else model.declaredAs enclosing name rest

/-- The type of a name given by its segments, innermost first. -/
def declaredBySegments (model : Model σ) : List String → Except Fault (Option Identifier)
  | [] => .ok none
  | simple :: outer => do
      let name := Dotted.join (simple :: outer).reverse
      let enclosing ←
        if Dotted.join outer.reverse = "" then pure none else model.declaredBySegments outer
      match ← model.declaredAs enclosing name EntityKind.types with
      | some id => return some id
      | none =>
          if model.symbols.knows name then some <$> candidate enclosing name .classType
          else return none

/-- The type known under a dotted name, if there is one. -/
def declaredType (model : Model σ) (name : String) : Except Fault (Option Identifier) :=
  model.declaredBySegments (Dotted.segments name).reverse

/-- The type that the outer part of a dotted name is known as. -/
def enclosingType (model : Model σ) (name : String) : Except Fault (Option Identifier) :=
  let outer := Dotted.outer name
  if outer = "" then .ok none else model.declaredType outer

/-- A reference with the type around it filled in where it names a nested type. -/
def bind (model : Model σ) : TypeRef → Except Fault TypeRef
  | .primitive name => .ok (.primitive name)
  | .named kind name (some enclosing) => .ok (.named kind name (some enclosing))
  | .named kind name none => do
      let enclosing ← model.enclosingType name
      return .named kind name (enclosing.map Identifier.text)
  | .array element dimensions => do return .array (← model.bind element) dimensions

/-- Whether a reference needs no resolving, or its name is known. -/
def isResolved (model : Model σ) (type : TypeRef) : Except Fault Bool :=
  match type.referencedName? with
  | none => .ok true
  | some name =>
      if model.symbols.knows name then .ok true
      else do return (← model.declaredType name).isSome

/-- A reference as the text it is stored as, and its name if nothing is known under it. -/
def resolve (model : Model σ) (type : TypeRef) : Except Fault (String × Option String) := do
  let bound ← model.bind type
  let resolved ← model.isResolved bound
  let text ← bound.text
  return (text, if resolved then none else bound.referencedName?)

end Model

end CodeFacts
