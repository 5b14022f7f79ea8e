import CodeFacts.Builder.Basic

/-!
How a builder replies to each call.
-/

namespace CodeFacts.Builder

variable {σ : Type} [TripleStore σ]

def hasLibrary (builder : Builder σ) (library : String) : Bool :=
  !(TripleStore.search builder.model.store
    ⟨some assetRoot, some Predicate.containsLibrary.uri,
      some (Declaration.libraryText library)⟩).isEmpty

/-- The name of a library, which must not be blank and holds no hash mark. -/
def libraryName (library : Value) : Except Fault String := do
  let name ← nameText library
  if Text.isBlankText name then .error (.refused .emptyLibrary)
  else if '#' ∈ name.toList then .error (.refused (.malformedLibrary name))
  else return name

/-- The place of a library, which must not be blank. -/
def libraryPlace (location : Value) : Except Fault String := do
  let place ← nameText location
  if Text.isBlankText place then .error (.refused .emptyLocation) else return place

/-- The name and the place of a library that the store does not have yet. -/
def newLibrary (builder : Builder σ) (library location : Value) :
    Except Fault (String × String) := do
  let name ← libraryName library
  let place ← libraryPlace location
  if builder.hasLibrary name then .error (.refused (.knownLibrary name))
  else return (name, place)

def startParsing (builder : Builder σ) (library location : Value) : Reply × Builder σ :=
  match builder.phase with
  | .parsing => builder.refuse (.refused (.alreadyStarted (builder.library.getD ""))) []
  | .idle =>
      match builder.newLibrary library location with
      | .error fault => builder.refuse fault []
      | .ok (name, place) =>
          (.accepted [],
            { builder with
              phase := .parsing
              library := some name
              location := some place
              unit := none
              unresolved := []
              errors := []
              path := { builder.path with fragments := [] }
              scopes := [] })

/-- A run ended. The library is added to the store. -/
def endParsing (builder : Builder σ) : Reply × Builder σ :=
  match builder.phase, builder.unit, builder.scopes with
  | .idle, _, _ => builder.notStarted "end of parsing"
  | .parsing, some unit, _ => builder.refuse (.scope (.unitOpen unit.plain)) []
  | .parsing, none, scope :: outer =>
      builder.refuse (.scope (.scopesOpen
        ((scope :: outer).reverse.map fun scope => (scope.kind, scope.name)))) []
  | .parsing, none, [] =>
      builder.write []
        (Declaration.libraryWrites (builder.library.getD "") (builder.location.getD "")
          builder.date)
        fun next => { next with phase := .idle }

/-- The name a unit is open under; a unit without one is not open. -/
def unitName? : (name : Value) → Option Value
  | .null => none
  | name => some name

/-- A unit begun. Only one is open at a time. -/
def startUnit (builder : Builder σ) (name : Value) : Reply × Builder σ :=
  match builder.phase, builder.unit with
  | .idle, _ => builder.notStarted "compilation unit"
  | .parsing, some unit => builder.refuse (.scope (.unitStillOpen name.plain unit.plain)) []
  | .parsing, none =>
      (.accepted [], { builder with unit := unitName? name, unitDepth := builder.depth })

/-- The open unit ended. The containers opened in it must be closed. -/
def endUnit (builder : Builder σ) : Reply × Builder σ :=
  match builder.phase, builder.unit with
  | .idle, _ => builder.notStarted "end of compilation unit"
  | .parsing, none => builder.refuse (.scope .noUnit) []
  | .parsing, some unit =>
      if builder.depth ≠ builder.unitDepth then
        builder.refuse (.scope (.unitScopesOpen unit.plain)) []
      else (.accepted [], { builder with unit := none })

/-- The segments a package adds to the innermost scope, which must be a package around it. -/
def segmentsInside (builder : Builder σ) (name : String) : Except Fault (List String) :=
  match builder.scopes with
  | [] => .ok (Dotted.segments name)
  | scope :: _ =>
      match Dotted.inside? scope.name name with
      | some rest => .ok (Dotted.segments rest)
      | none => .error (.refused (.packageNotNested name scope.name))

/-- The scope that is open in place of a package, if there is one. -/
def otherScope? (builder : Builder σ) : Option Scope :=
  builder.scopes.head?.filter fun scope => decide (scope.kind ≠ .package)

/-- The name of a package and the segments it adds to the innermost scope. -/
def packageName (builder : Builder σ) (name : Value) : Except Fault (String × List String) :=
  if name.isNothing then .error (.refused .emptyPackage)
  else
    match builder.otherScope? with
    | some scope => .error (.refused (.packageInside name.plain scope.kind scope.name))
    | none => do
        let name ← nameText name
        return (name, ← builder.segmentsInside name)

def startPackage (builder : Builder σ) (name : Value) : Reply × Builder σ :=
  match builder.phase with
  | .idle => builder.notStarted "package"
  | .parsing =>
      match builder.packageName name with
      | .error fault => builder.refuse fault []
      | .ok (name, segments) =>
          builder.openScope [] .package segments name
            (Declaration.packageWrites builder.container)

/-- A problem of the input noted, whether or not a run is on. -/
def noteError (builder : Builder σ) (location description : Value) : Reply × Builder σ :=
  (.accepted [.parseError location description],
    { builder with errors := builder.errors ++ [Call.errorText location description] })

/-- The documentation of a method, whose signature must be made of texts. -/
def noteMethodDoc (builder : Builder σ) (signature : Value) : Reply × Builder σ :=
  if (signature.items?).any (·.all Value.isText) then (.accepted [], builder)
  else builder.refuse (.unsupported .operation) []

/-- The kinds of container that constructors are declared in. -/
def constructible : List EntityKind := [.classType, .enumeration]

/-- The reply to a call and the builder after it. Documentation adds nothing to a model. -/
def handle (builder : Builder σ) : Call → Reply × Builder σ
  | .startParsing library location => builder.startParsing library location
  | .endParsing => builder.endParsing
  | .startUnit name => builder.startUnit name
  | .endUnit => builder.endUnit
  | .startPackage name => builder.startPackage name
  | .endPackage => builder.closeScope .package
  | .startClass visibility name modifiers extended implemented =>
      builder.openType .classType "class" name
        (Declaration.classWrites visibility modifiers extended implemented)
  | .endClass => builder.closeScope .classType
  | .startInterface name extended visibility modifiers =>
      builder.openType .interface "interface" name
        (Declaration.interfaceWrites visibility modifiers extended)
  | .endInterface => builder.closeScope .interface
  | .startEnumeration visibility name elements modifiers implemented =>
      builder.openType .enumeration "enumeration" name
        (Declaration.enumerationWrites visibility modifiers elements implemented)
  | .endEnumeration => builder.closeScope .enumeration
  | .attribute visibility name type modifiers value =>
      builder.declare .attribute "attribute" EntityKind.types (builder.simpleName name)
        (Declaration.attributeWrites visibility modifiers type value)
  | .constructor visibility overload parameters types modifiers exceptions =>
      builder.declare .constructor "constructor" constructible
        (.ok (Declaration.overloadName overload, []))
        (Declaration.executableWrites .constructor visibility modifiers overload parameters types
          none exceptions)
  | .method visibility name parameters types result modifiers exceptions overload =>
      builder.declare .method "method" EntityKind.types (builder.simpleName name)
        (Declaration.executableWrites .method visibility modifiers overload parameters types
          result exceptions)
  | .parseError location description => builder.noteError location description
  | .methodDoc _ _ signature => builder.noteMethodDoc signature
  | .parsedEntry _ | .classDoc _ _ => (.accepted [], builder)

instance : Handler (Builder σ) where
  handle call builder := builder.handle call

def toValue (builder : Builder σ) : Value :=
  let scope (scope : Scope) : Value :=
    .record [("kind", .text scope.kind.key), ("identifier", .text scope.identifier.text),
      ("pushed", .int scope.pushed), ("name", .text scope.name)]
  .record [("state", .text builder.phase.word), ("library_name", Value.ofText? builder.library),
    ("location", Value.ofText? builder.location),
    ("compilation_unit", builder.unit.getD .null),
    ("unresolved_types", Value.ofTexts
      (builder.unresolved.mergeSort fun left right => decide (left ≤ right))),
    ("errors", Value.ofTexts builder.errors), ("depth", .int builder.depth),
    ("scope", (builder.scopes.head?.map scope).getD .null)]

end CodeFacts.Builder
