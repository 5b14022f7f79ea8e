import CodeFacts.Source.Outline
import CodeFacts.Source.Resolver
import CodeFacts.Source.Trace

/-!
How the declarations of a unit are told: every type is a block of calls, from the one that opens it
to the one that closes it, with its documentation and its members in between.
-/

namespace CodeFacts.Source

/-! ### References -/

def Resolver.reference (resolver : Resolver) (kind : NamedKind) (written : Written) :
    Except Fault TypeRef :=
  written.map fun type => resolver.resolve type.name kind type.dimensions

/-- The references of a clause, whose dimensions do not count. -/
def Resolver.clause (resolver : Resolver) (kind : NamedKind) (types : List Written) :
    Except Fault (List TypeRef) :=
  types.mapM fun written => written.map fun type => resolver.resolve type.name kind 0

/-- A type in the name of a signature. -/
def signatureName : TypeRef → Except Fault String
  | .primitive name => .ok name
  | .named kind name enclosing =>
      if name = "" then TypeRef.text (.named kind name enclosing) else .ok name
  | .array element dimensions => do
      return (← signatureName element) ++ String.join (List.replicate dimensions.toNat "[]")

/-! ### Access -/

/-- The visibility of a declaration. What no keyword says is public in an interface. -/
def visibilityOf (inInterface : Bool) (keywords : List String) : Visibility :=
  match Visibility.ofKeywords keywords with
  | .defaultAccess => if inInterface then .publicAccess else .defaultAccess
  | visibility => visibility

def withModifier (modifier : Modifier) (modifiers : List Modifier) : List Modifier :=
  if modifier ∈ modifiers then modifiers else modifiers ++ [modifier]

/-- The visibility and the modifiers of a field. The fields of interfaces are public, static and
final. -/
def fieldAccess (inInterface : Bool) (keywords : List String) : Visibility × List Modifier :=
  let modifiers := Modifier.ofKeywords keywords
  if inInterface then (.publicAccess, withModifier .final (withModifier .static modifiers))
  else (Visibility.ofKeywords keywords, modifiers)

/-- The modifiers of a method. Methods of interfaces are abstract unless they have a body. -/
def methodModifiers (inInterface hasBody : Bool) (keywords : List String) : List Modifier :=
  let modifiers := Modifier.ofKeywords keywords
  if inInterface && !hasBody then withModifier .abstract modifiers else modifiers

def bitsOf (modifiers : List Modifier) : List Nat := modifiers.map Modifier.bit

/-! ### Members -/

/-- A field declaration: one attribute for each of its names. -/
def fieldTrace (resolver : Resolver) (inInterface : Bool) (field : FieldDeclaration) : Trace :=
  let (visibility, modifiers) := fieldAccess inInterface field.keywords
  Trace.join <| field.declarators.map fun declarator => Trace.ofCall do
    let type ← resolver.reference .classType (field.type.extend declarator.dimensions)
    return .attribute (.text visibility.word) (.text declarator.name) type (bitsOf modifiers)
      (Value.ofText? declarator.value)

def parameterTypes (resolver : Resolver) (declaration : ExecutableDeclaration) :
    Except Fault (List TypeRef) :=
  declaration.parameters.mapM fun parameter => resolver.reference .classType parameter.2

def constructorTrace (resolver : Resolver) (declaration : ExecutableDeclaration)
    (overload : Nat) : Trace :=
  let inner := resolver.enter declaration.typeVariables
  Trace.ofCall do
    let types ← parameterTypes inner declaration
    let exceptions ← inner.clause .exception declaration.exceptions
    return .constructor (.text (Visibility.ofKeywords declaration.keywords).word) (.int overload)
      (Value.ofTexts (declaration.parameters.map (·.1))) types
      (bitsOf (Modifier.ofKeywords declaration.keywords)) exceptions

def methodDocTrace (owner : String) (declaration : ExecutableDeclaration)
    (types : List TypeRef) : Trace :=
  match declaration.documentation with
  | none => .empty
  | some entry =>
      Trace.ofCalls [.parsedEntry entry] ++ Trace.ofCall do
        let signature ← types.mapM signatureName
        return .methodDoc entry (.text (Dotted.within owner declaration.name))
          (Value.ofTexts signature)

def methodTrace (resolver : Resolver) (owner : String) (inInterface : Bool)
    (declaration : ExecutableDeclaration) (overload : Nat) : Trace :=
  match declaration.type with
  | none => .empty
  | some written =>
      let inner := resolver.enter declaration.typeVariables
      let read : Except Fault (TypeRef × List TypeRef × List TypeRef) := do
        let result ← inner.reference .classType written
        let types ← parameterTypes inner declaration
        return (result, types, ← inner.clause .exception declaration.exceptions)
      match read with
      | .error fault => .stop fault
      | .ok (result, types, exceptions) =>
          Trace.ofCalls
            [.method (.text (visibilityOf inInterface declaration.keywords).word)
              (.text declaration.name) (Value.ofTexts (declaration.parameters.map (·.1))) types
              (some result)
              (bitsOf (methodModifiers inInterface declaration.hasBody declaration.keywords))
              exceptions (.int overload)] ++
            methodDocTrace owner declaration types

/-! ### Types -/

def openCall (resolver : Resolver) (name : String) (inInterface : Bool) (heading : TypeHeading) :
    Except Fault Call := do
  let visibility := Value.text (visibilityOf inInterface heading.keywords).word
  let modifiers := bitsOf (Modifier.ofKeywords heading.keywords)
  let extended ← heading.extended.mapM (resolver.reference .classType)
  let interfaces ← resolver.clause .interface heading.interfaces
  match heading.sort with
  | .classType => return .startClass visibility (.text name) modifiers extended interfaces
  | .interface => return .startInterface (.text name) interfaces visibility modifiers
  | .enumeration =>
      return .startEnumeration visibility (.text name) (Value.ofTexts heading.elements) modifiers
        interfaces

def closeCall : TypeSort → Call
  | .classType => .endClass
  | .interface => .endInterface
  | .enumeration => .endEnumeration

def typeDocTrace (name : String) (heading : TypeHeading) : Trace :=
  match heading.documentation with
  | none => .empty
  | some entry => Trace.ofCalls [.parsedEntry entry, .classDoc entry (.text name)]

mutual

/-- A member of a type of a dotted name. It is told how many methods of its name and how many
constructors come before it. -/
def memberTrace (resolver : Resolver) (owner : String) (inInterface : Bool) (methods : List String)
    (constructors : Nat) : Member → Trace
  | .field declaration => fieldTrace resolver inInterface declaration
  | .method declaration =>
      methodTrace resolver owner inInterface declaration (methods.count declaration.name)
  | .constructor declaration => constructorTrace resolver declaration constructors
  | .type heading members =>
      let name := Dotted.within owner heading.name
      let inner := resolver.enter heading.typeVariables
      Trace.ofCall (openCall inner name inInterface heading) ++
        typeDocTrace name heading ++
        memberTraces inner name (heading.sort == .interface) [] 0 members ++
        Trace.ofCalls [closeCall heading.sort]

/-- The members of a type of a dotted name, after some methods and constructors. -/
def memberTraces (resolver : Resolver) (owner : String) (inInterface : Bool)
    (methods : List String) (constructors : Nat) : List Member → Trace
  | [] => .empty
  | member :: rest =>
      memberTrace resolver owner inInterface methods constructors member ++
        match member with
        | .method declaration =>
            memberTraces resolver owner inInterface (declaration.name :: methods) constructors rest
        | .constructor _ =>
            memberTraces resolver owner inInterface methods (constructors + 1) rest
        | _ => memberTraces resolver owner inInterface methods constructors rest

end

/-! ### Units -/

mutual

/-- The dotted names of a type and of the types in it. -/
def typeNames (outer : String) : Member → List String
  | .type heading members =>
      let name := Dotted.within outer heading.name
      name :: allTypeNames name members
  | _ => []

/-- The dotted names of the types among some members and of the types in them. -/
def allTypeNames (outer : String) : List Member → List String
  | [] => []
  | member :: rest => typeNames outer member ++ allTypeNames outer rest

end

/-- What is known of names in a unit. -/
def Outline.resolver (outline : Outline) (symbols : SymbolTable) : Resolver :=
  let imported := outline.imports.foldl
    (fun resolver (item : Import) =>
      if item.onDemand then resolver.importPackage item.name else resolver.importType item.name)
    (Resolver.start outline.package symbols)
  (allTypeNames outline.package outline.types).foldl Resolver.declare imported

/-- The types of a unit, inside its package if it has one. -/
def Outline.trace (outline : Outline) (symbols : SymbolTable) : Trace :=
  let types := memberTraces (outline.resolver symbols) outline.package false [] 0 outline.types
  if outline.package = "" then types
  else
    Trace.ofCalls [.startPackage (.text outline.package)] ++ types ++ Trace.ofCalls [.endPackage]

/-- A unit at a path: its parse errors, then its declarations. -/
def unitTrace (symbols : SymbolTable) (path : String) (root : Node) : Trace :=
  Trace.ofCalls (root.errors path) ++ (Outline.ofRoot root).trace symbols

end CodeFacts.Source
