import CodeFacts.DocEntry
import CodeFacts.Fault
import CodeFacts.Modifier

/-!
The declarations of a unit as they are written, before any name is qualified.
-/

namespace CodeFacts.Source

/-- A written name of a type, without its arguments, and its array dimensions. -/
structure WrittenType where
  name : String
  dimensions : Nat
  deriving DecidableEq

/-- A type as far as it can be read. -/
abbrev Written := Except Fault WrittenType

/-- One name of a field declaration, with dimensions of its own. -/
structure Declarator where
  name : String
  dimensions : Nat
  value : Option String

structure FieldDeclaration where
  keywords : List String
  type : Written
  declarators : List Declarator

/-- A method or a constructor. A method without a type is not told, but counts as an overload. -/
structure ExecutableDeclaration where
  keywords : List String
  typeVariables : List String
  name : String
  type : Option Written
  parameters : List (String × Written)
  exceptions : List Written
  hasBody : Bool
  documentation : Option DocEntry

inductive TypeSort where
  | classType
  | interface
  | enumeration
  deriving DecidableEq, Repr

structure TypeHeading where
  sort : TypeSort
  keywords : List String
  typeVariables : List String
  name : String
  extended : Option Written
  interfaces : List Written
  elements : List String
  documentation : Option DocEntry

/-- A member of a type, or a type. -/
inductive Member where
  | field (declaration : FieldDeclaration)
  | method (declaration : ExecutableDeclaration)
  | constructor (declaration : ExecutableDeclaration)
  | type (heading : TypeHeading) (members : List Member)

/-- An import, of a type or on demand. -/
structure Import where
  name : String
  onDemand : Bool
  deriving DecidableEq

/-- The declarations of a unit. The empty package name stands for no package. -/
structure Outline where
  package : String
  imports : List Import
  types : List Member

end CodeFacts.Source
