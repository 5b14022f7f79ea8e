import CodeFacts.Identifier
import CodeFacts.Query.Entity
import CodeFacts.Store.Basic
import CodeFacts.TypeRef

/-!
Queries: entities read back from the triples of a store. Names are dotted names or the texts of
identifiers; entities come sorted by identifier. Where an identifier may be missing, every subject
is asked.
-/

namespace CodeFacts.Query

variable {σ : Type} [TripleStore σ]

def sorted (texts : List String) : List String :=
  texts.mergeSort fun left right => decide (left ≤ right)

def objects (store : σ) (subject : Option String) (predicate : Predicate) : List String :=
  (TripleStore.search store ⟨subject, some predicate.uri, none⟩).map (·.object)

def value? (store : σ) (subject : Option String) (predicate : Predicate) : Option String :=
  (objects store subject predicate).head?

def hasKind (store : σ) (id : Option String) (kind : EntityKind) : Bool :=
  !(TripleStore.search store ⟨id, some Predicate.subClassOf.uri, some kind.uri⟩).isEmpty

def allOfKind (store : σ) (kind : EntityKind) : List String :=
  sorted ((TripleStore.search store
    ⟨none, some Predicate.subClassOf.uri, some kind.uri⟩).map (·.subject))

def contained (store : σ) (container : Option String) (kind : EntityKind) : List String :=
  sorted ((objects store container (.contains kind)).filter (hasKind store · kind))

/-! ### Lookups -/

/-- Whether a name is the text of an identifier. -/
def isIdentifier (name : String) : Bool :=
  decide ('#' ∈ name.toList) || decide (':' ∈ name.toList)

/-- The identifier a package is looked up by. -/
def packageText (name : String) : Except Fault String := do
  let id ← if isIdentifier name then Identifier.read name else Identifier.ofPackage name
  return id.text

/-- The identifier a type of a kind is looked up by. -/
def typeText (name : String) (kind : EntityKind) : Except Fault String := do
  let id ←
    if isIdentifier name then Identifier.read name else Identifier.ofTypeName name kind.key
  return id.text

/-- The first of some kinds under which a type is declared in packages alone. -/
def findTopLevel (store : σ) (name : String) : List EntityKind → Except Fault (Option String)
  | [] => .ok none
  | kind :: rest => do
      let id ← typeText name kind
      if hasKind store id kind then return some id else findTopLevel store name rest

/-- The first of some identifiers with a dotted name. -/
def findNamed (name : String) : List String → Except Fault (Option String)
  | [] => .ok none
  | text :: rest => do
      let id ← Identifier.read text
      if id.dottedName = name then return some text else findNamed name rest

/-- The identifier of the type of one of some kinds called by a name. Where no type is declared
under the name in packages alone, types nested in others are tried by their dotted names. -/
def findType (store : σ) (name : String) (kinds : List EntityKind) :
    Except Fault (Option String) := do
  match ← findTopLevel store name kinds with
  | some id => return some id
  | none =>
      if isIdentifier name then return none
      else findNamed name (kinds.flatMap (allOfKind store))

/-- The identifier of a type, which must be found. -/
def requireType (store : σ) (name : String) (kinds : List EntityKind) : Except Fault String := do
  match ← findType store name kinds with
  | some id => return id
  | none => .error (.lookup (.type name))

/-- That an identifier is of a kind. -/
def require (store : σ) (id : Option String) (kind : EntityKind) : Except Fault Unit :=
  if hasKind store id kind then .ok ()
  else .error (.lookup (.entity kind (Value.ofText? id).plain))

def packageExists (store : σ) (name : String) : Except Fault Bool :=
  (packageText name).map fun id => hasKind store id .package

def typeExists (store : σ) (name : String) (kind : EntityKind) : Except Fault Bool :=
  (findType store name [kind]).map Option.isSome

/-- The identifier of a container by its name, the empty name being that of the default package. -/
def containerText (store : σ) (name : String) : Except Fault String := do
  if name = "" then return Identifier.defaultPackage.text
  else if ← packageExists store name then packageText name
  else requireType store name EntityKind.types

/-- The identifier a member of a type has, if the type is found. -/
def memberText (store : σ) (type name : String) (kind : EntityKind) :
    Except Fault (Option String) := do
  match ← findType store type EntityKind.types with
  | none => return none
  | some owner => do
      let id ← (← Identifier.read owner).child name kind.key
      return some id.text

def memberExists (store : σ) (type name : String) (kind : EntityKind) : Except Fault Bool := do
  match ← memberText store type name kind with
  | none => return false
  | some id => return hasKind store id kind

/-! ### Entities -/

/-- The simple name in the text of an identifier. -/
def simpleName (text : String) : Except Fault String := do
  let id ← Identifier.read text
  return (id.fragments.getLast?.map (·.name)).getD ""

def naming (text : String) : Except Fault Naming := do
  let name ← simpleName text
  let id ← Identifier.read text
  return ⟨text, name, id.dottedName⟩

def visibility (store : σ) (id : Option String) : Except Fault (Option Visibility) :=
  (value? store id .hasVisibility).mapM fun word => Visibility.ofValue (.text word)

def modifiers (store : σ) (id : Option String) : Except Fault (List Modifier) :=
  match value? store id .hasModifiers with
  | none => .ok []
  | some mask => if mask = "" then .ok [] else (readWhole mask).map Modifier.ofMask

/-- The names, the visibility and the modifiers of an identifier. -/
def access (store : σ) (id : String) : Except Fault (Naming × Access) := do
  let naming ← naming id
  let visibility ← visibility store id
  let modifiers ← modifiers store id
  return (naming, ⟨visibility, modifiers⟩)

def parameter (store : σ) (id : String) : Except Fault Parameter := do
  let naming ← naming id
  let index := (value? store id .parameterIndex).getD ""
  let index ← if index = "" then pure 0 else readWhole index
  return { naming with type := (value? store id .parameterType).getD "", index }

/-- The parameters of a signature, in the order of their positions. -/
def parameters (store : σ) (signature : Option String) : Except Fault (List Parameter) := do
  require store signature .signature
  let parameters ← (contained store signature .parameter).mapM (parameter store)
  return parameters.mergeSort fun left right => decide (left.index ≤ right.index)

def signature (store : σ) (id : String) : Except Fault Signature := do
  let naming ← naming id
  let parameters ← parameters store id
  return { naming with
    parameters
    result := value? store id .returnType
    exceptions := objects store id .throwsException }

def signatures (store : σ) (member : Option String) : Except Fault (List Signature) :=
  if hasKind store member .method || hasKind store member .constructor then
    (contained store member .signature).mapM (signature store)
  else .error (.lookup (.executable (Value.ofText? member).plain))

/-- What is said of an identifier of a kind. Signatures and parameters are no entities of their
own. -/
def entity (store : σ) (kind : EntityKind) (id : String) : Except Fault Entity := do
  match kind with
  | .package => return { ← naming id with details := .package }
  | .classType =>
      let (naming, access) ← access store id
      return { naming with
        details := .classType access (value? store id .extendsClass)
          (objects store id .implementsInterface) }
  | .interface =>
      let (naming, access) ← access store id
      return { naming with details := .interface access (objects store id .extendsInterface) }
  | .enumeration =>
      let (naming, access) ← access store id
      return { naming with
        details := .enumeration access (objects store id .containsElement)
          (objects store id .implementsInterface) }
  | .attribute =>
      let (naming, access) ← access store id
      return { naming with
        details := .attribute access ((value? store id .attributeType).getD "")
          (value? store id .attributeValue) }
  | .method =>
      let (naming, access) ← access store id
      return { naming with details := .method access (← signatures store id) }
  | .constructor =>
      let (naming, access) ← access store id
      return { naming with details := .constructor access (← signatures store id) }
  | .signature | .parameter => .error (.unsupported .part)

def all (store : σ) (kind : EntityKind) : Except Fault (List Entity) :=
  (allOfKind store kind).mapM (entity store kind)

def package (store : σ) (name : String) : Except Fault Entity := do
  let id ← packageText name
  require store id .package
  entity store .package id

def type (store : σ) (name : String) (kind : EntityKind) : Except Fault Entity := do
  entity store kind (← requireType store name [kind])

def member (store : σ) (type name : String) (kind : EntityKind) : Except Fault Entity := do
  match ← memberText store type name kind with
  | none => .error (.lookup (.type type))
  | some id => do
      require store id kind
      entity store kind id

/-- The packages and types of a kind that a package or a type holds. -/
def inside (store : σ) (container : String) (kind : EntityKind) : Except Fault (List Entity) := do
  let container ← containerText store container
  (contained store container kind).mapM (entity store kind)

/-- The kinds of type a kind of member can belong to. -/
def ownerKinds : EntityKind → List EntityKind
  | .constructor => [.classType, .enumeration]
  | _ => EntityKind.types

def membersOf (store : σ) (type : String) (kind : EntityKind) : Except Fault (List Entity) := do
  let owner ← requireType store type (ownerKinds kind)
  (contained store owner kind).mapM (entity store kind)

/-- The type of the result of a signature, none for constructors. -/
def returnType (store : σ) (signature : Option String) : Except Fault (Option TypeRef) := do
  require store signature .signature
  (value? store signature .returnType).mapM TypeRef.read

def elements (store : σ) (name : String) : Except Fault (List String) := do
  let id ← requireType store name [.enumeration]
  return objects store id .containsElement

/-- The name of a library: its identifier without the space of libraries. -/
def libraryName (id : String) : String :=
  let start := (resource assetPattern).toList
  if start.isPrefixOf id.toList then String.ofList (id.toList.drop start.length) else id

def libraries (store : σ) : List Entity :=
  (sorted (objects store assetRoot .containsLibrary)).map fun id =>
    { id
      name := libraryName id
      qualifiedName := libraryName id
      details := .library (value? store id .libraryLocation) (value? store id .libraryDate) }

end CodeFacts.Query
