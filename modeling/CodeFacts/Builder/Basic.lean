import CodeFacts.Builder.Declaration
import CodeFacts.Call

/-!
Builders: they turn calls into the facts of a model. A call either adds all of its facts or none.
Containers nest; the path of a builder is the identifier of what would be declared next, without
its last fragment.
-/

namespace CodeFacts

inductive Phase where
  | idle
  | parsing
  deriving DecidableEq, Repr

def Phase.word : Phase → String
  | .idle => "idle"
  | .parsing => "parsing"

/-- An open container: its kind, its identifier, how many fragments it put on the path, and its
dotted name. -/
structure Scope where
  kind : EntityKind
  identifier : Identifier
  pushed : Nat
  name : String
  deriving DecidableEq

/-- The state of a builder. Scopes are kept innermost first. The library and its location stay after
a run until the next one; the open unit has the number of scopes that were open when it began, and
its name is kept as it was given. -/
structure Builder (σ : Type) where
  model : Model σ
  date : String
  phase : Phase
  library : Option String
  location : Option String
  unit : Option Value
  unitDepth : Nat
  unresolved : List String
  errors : List String
  path : Identifier
  scopes : List Scope

namespace Builder

variable {σ : Type} [TripleStore σ]

/-- A builder that has had no call. Libraries are stamped with the date given. -/
def start (model : Model σ) (date : String) : Builder σ where
  model := model
  date := date
  phase := .idle
  library := none
  location := none
  unit := none
  unitDepth := 0
  unresolved := []
  errors := []
  path := .empty
  scopes := []

def depth (builder : Builder σ) : Nat := builder.scopes.length

/-- What holds the next declaration. -/
def container (builder : Builder σ) : Identifier :=
  match builder.scopes with
  | [] => Identifier.defaultPackage
  | scope :: _ => scope.identifier

/-- The dotted name of the innermost scope, empty if there is none. -/
def scopeName (builder : Builder σ) : String :=
  match builder.scopes with
  | [] => ""
  | scope :: _ => scope.name

def scopedName (builder : Builder σ) (simple : String) : String :=
  match builder.scopes with
  | [] => simple
  | scope :: _ => scope.name ++ "." ++ simple

def refuse (builder : Builder σ) (fault : Fault) (notices : List Notice) : Reply × Builder σ :=
  (.refused fault notices, builder)

/-- A refusal where no run is on. -/
def notStarted (builder : Builder σ) (what : String) : Reply × Builder σ :=
  builder.refuse (.refused (.notStarted what)) []

/-- The notice of a declared name whose outer part is not the innermost scope. -/
def discrepancies (builder : Builder σ) (name : String) : List Notice :=
  let declared := Dotted.outer name
  if declared = "" ∨ declared = builder.scopeName then []
  else [.packageDiscrepancy declared builder.scopeName]

/-- Names with one more, each kept once. -/
def note (names : List String) (name : String) : List String :=
  if name ∈ names then names else names ++ [name]

/-- The additions of a call, all or none; `after` is what else changes when none is refused. -/
def write (builder : Builder σ) (notices : List Notice) (writes : List Write)
    (after : Builder σ → Builder σ) : Reply × Builder σ :=
  match builder.model.writeAll writes with
  | (model, .error fault) => (.refused fault notices, { builder with model })
  | (model, .ok unknown) =>
      (.accepted (notices ++ unknown.map .unresolvedType),
        after { builder with model, unresolved := unknown.foldl note builder.unresolved })

/-- A path with fragments of one kind put on it up to the first that is refused. -/
def pushAll (kind : EntityKind) (path : Identifier) : List String → Identifier × Option Fault
  | [] => (path, none)
  | segment :: rest =>
      match path.child segment kind.key with
      | .ok next => pushAll kind next rest
      | .error fault => (path, some fault)

/-- A container opened with its additions. When a segment of its name is refused, the segments
before it stay on the path. -/
def openScope (builder : Builder σ) (notices : List Notice) (kind : EntityKind)
    (segments : List String) (name : String) (writes : Identifier → List Write) :
    Reply × Builder σ :=
  match pushAll kind builder.path segments with
  | (path, some fault) => (.refused fault notices, { builder with path })
  | (path, none) =>
      builder.write notices (writes path) fun next =>
        { next with path, scopes := ⟨kind, path, segments.length, name⟩ :: next.scopes }

/-- The text given as a name; what stands for nothing is the empty name. -/
def nameText : Value → Except Fault String
  | .text name => .ok name
  | value => if value.isNothing then .ok "" else .error (.unsupported .part)

/-- The last segment of a declared name, which must not be empty, and the notices it is worth. -/
def simpleName (builder : Builder σ) (name : Value) : Except Fault (String × List Notice) := do
  let name ← nameText name
  if name = "" then .error (.refused .emptyName)
  else return (Dotted.simple name, builder.discrepancies name)

/-- A type opened in the innermost scope, under the last segment of its name. -/
def openType (builder : Builder σ) (kind : EntityKind) (what : String) (name : Value)
    (writes : (container id : Identifier) → List Write) : Reply × Builder σ :=
  match builder.phase with
  | .idle => builder.notStarted what
  | .parsing =>
      match builder.simpleName name with
      | .error fault => builder.refuse fault []
      | .ok (simple, notices) =>
          builder.openScope notices kind [simple] (builder.scopedName simple)
            (writes builder.container)

/-- The innermost scope closed, which must be of a kind and opened inside of the open unit. -/
def closeScope (builder : Builder σ) (kind : EntityKind) : Reply × Builder σ :=
  match builder.phase, builder.scopes with
  | .idle, _ => builder.notStarted s!"end of {kind.key}"
  | .parsing, [] => builder.refuse (.scope (.noScope kind)) []
  | .parsing, scope :: outer =>
      let close : Reply × Builder σ :=
        (.accepted [],
          { builder with path := builder.path.ancestor scope.pushed, scopes := outer })
      if scope.kind ≠ kind then
        builder.refuse (.scope (.otherScope kind scope.kind scope.name)) []
      else
        match builder.unit with
        | none => close
        | some unit =>
            if builder.depth ≤ builder.unitDepth then
              builder.refuse (.scope (.outsideUnit kind unit.plain)) []
            else close

/-- A member declared in the innermost scope, which must be of one of some kinds. -/
def declare (builder : Builder σ) (kind : EntityKind) (what : String) (kinds : List EntityKind)
    (named : Except Fault (String × List Notice))
    (writes : (container id : Identifier) → List Write) : Reply × Builder σ :=
  match builder.phase, builder.scopes with
  | .idle, _ => builder.notStarted what
  | .parsing, [] => builder.refuse (.refused (.outside what kinds)) []
  | .parsing, scope :: _ =>
      if scope.kind ∉ kinds then builder.refuse (.refused (.outside what kinds)) []
      else
        match named with
        | .error fault => builder.refuse fault []
        | .ok (name, notices) =>
            match scope.identifier.child name kind.key with
            | .error fault => builder.refuse fault notices
            | .ok id => builder.write notices (writes scope.identifier id) fun next => next

end Builder

end CodeFacts
