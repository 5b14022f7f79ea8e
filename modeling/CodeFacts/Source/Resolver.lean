import CodeFacts.Entries
import CodeFacts.Symbols
import CodeFacts.TypeRef

/-!
How the names of types written in a unit are qualified. A simple name is that of a type variable, a
single import, a type of the unit, a known type of the package, a type of the language's own
package or a known type of a package imported on demand, in this order; where it is none of these it
is taken to be in the package.
-/

namespace CodeFacts.Source

/-- The package whose types need no import. -/
def languagePackage : String := "java.lang"

/-- What type variables stand for. -/
def variableBound : String := "java.lang.Object"

/-- The types of the language's own package. -/
def languageTypes : List String :=
  ["AutoCloseable", "Boolean", "Byte", "CharSequence", "Character", "Class", "ClassCastException",
    "ClassNotFoundException", "CloneNotSupportedException", "Cloneable", "Comparable", "Deprecated",
    "Double", "Enum", "Error", "Exception", "Float", "FunctionalInterface",
    "IllegalArgumentException", "IllegalStateException", "IndexOutOfBoundsException", "Integer",
    "InterruptedException", "Iterable", "Long", "Math", "NullPointerException", "Number",
    "NumberFormatException", "Object", "Override", "Record", "Runnable", "RuntimeException",
    "SafeVarargs", "Short", "String", "StringBuffer", "StringBuilder", "SuppressWarnings", "System",
    "Thread", "Throwable", "UnsupportedOperationException", "Void"]

/-- What is known of names in a unit: its package, the names known from outside, imports and types
of the unit by their simple names, and the type variables of each scope, innermost first. -/
structure Resolver where
  package : String
  symbols : SymbolTable
  singleImports : List (String × String)
  onDemandImports : List String
  localTypes : List (String × String)
  scopes : List (List String)

namespace Resolver

def start (package : String) (symbols : SymbolTable) : Resolver :=
  ⟨package, symbols, [], [], [], []⟩

/-- A resolver with an import of one type. A later import of the same simple name counts. -/
def importType (resolver : Resolver) (name : String) : Resolver :=
  { resolver with
    singleImports := Entries.put resolver.singleImports (Dotted.simple name) name }

def importPackage (resolver : Resolver) (name : String) : Resolver :=
  if name ∈ resolver.onDemandImports then resolver
  else { resolver with onDemandImports := resolver.onDemandImports ++ [name] }

/-- A resolver with a type of the unit. The first type of a simple name counts. -/
def declare (resolver : Resolver) (name : String) : Resolver :=
  { resolver with
    localTypes := Entries.putNew resolver.localTypes (Dotted.simple name) name }

def enter (resolver : Resolver) (names : List String) : Resolver :=
  { resolver with scopes := names :: resolver.scopes }

def leave (resolver : Resolver) : Except Fault Resolver :=
  match resolver.scopes with
  | [] => .error (.index .emptyStack)
  | _ :: outer => .ok { resolver with scopes := outer }

def isVariable (resolver : Resolver) (name : String) : Bool :=
  resolver.scopes.any fun names => decide (name ∈ names)

/-- What a simple name is known as, if it is known. -/
def known? (resolver : Resolver) (name : String) : Option String :=
  match Entries.get? resolver.singleImports name, Entries.get? resolver.localTypes name with
  | some imported, _ => some imported
  | none, some declared => some declared
  | none, none =>
      let inPackage := Dotted.within resolver.package name
      let inLanguage := Dotted.within languagePackage name
      if resolver.symbols.knows inPackage then some inPackage
      else if name ∈ languageTypes ∨ resolver.symbols.knows inLanguage = true then some inLanguage
      else
        (resolver.onDemandImports.map (Dotted.within · name)).find? resolver.symbols.knows

/-- The dotted name a written name stands for. Of a name with dots the first segment is looked up,
and the name stays as it is where that is not known. -/
def qualify (resolver : Resolver) (name : String) : String :=
  if resolver.isVariable name then variableBound
  else
    match Text.cut '.' name.toList with
    | some (first, rest) =>
        match resolver.known? (String.ofList first) with
        | some outer => outer ++ "." ++ String.ofList rest
        | none => name
    | none => (resolver.known? name).getD (Dotted.within resolver.package name)

/-- The reference that a written name without dimensions stands for. -/
def element (resolver : Resolver) (name : String) (kind : NamedKind) : TypeRef :=
  (TypeRef.ofKeyword? name).getD (.named kind (resolver.qualify name) none)

/-- The reference that a written name with some dimensions stands for. -/
def resolve (resolver : Resolver) (name : String) (kind : NamedKind) (dimensions : Int) :
    TypeRef :=
  if dimensions = 0 then resolver.element name kind
  else .array (resolver.element name kind) dimensions

/-- The reference that a written name with unchecked dimensions stands for; whatever stands for
something is a count of them. -/
def resolveValue (resolver : Resolver) (name : String) (kind : NamedKind) (dimensions : Value) :
    Except Fault TypeRef :=
  let element := resolver.element name kind
  if dimensions.isNothing then .ok element
  else (TypeRef.array element <$> Checked.integer ["dimensions"] dimensions).result

end Resolver

end CodeFacts.Source
