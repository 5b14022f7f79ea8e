import CodeFacts.Modifier

/-!
Entities: what a model says of the things it has facts about. Two entities are the same when their
identifiers are.
-/

namespace CodeFacts

/-- How an entity is called: its identifier, its simple name and its dotted name. -/
structure Naming where
  id : String
  name : String
  qualifiedName : String
  deriving DecidableEq

structure Access where
  visibility : Option Visibility
  modifiers : List Modifier
  deriving DecidableEq

structure Parameter extends Naming where
  type : String
  index : Int
  deriving DecidableEq

/-- One overload of a method or a constructor. A constructor has no result. -/
structure Signature extends Naming where
  parameters : List Parameter
  result : Option String
  exceptions : List String
  deriving DecidableEq

/-- What is said of an entity besides its names. -/
inductive Details where
  | package
  | classType (access : Access) (extended : Option String) (implemented : List String)
  | interface (access : Access) (extended : List String)
  | enumeration (access : Access) (elements implemented : List String)
  | attribute (access : Access) (type : String) (value : Option String)
  | method (access : Access) (signatures : List Signature)
  | constructor (access : Access) (signatures : List Signature)
  | library (location date : Option String)
  deriving DecidableEq

structure Entity extends Naming where
  details : Details
  deriving DecidableEq

/-- The names of an entity after the word for what it is. -/
def Naming.text (naming : Naming) (word : String) : String :=
  s!"{word}(name={naming.name}, qualified_name={naming.qualifiedName})"

def Details.word : Details → String
  | .package => "JPackage"
  | .classType .. => "JClass"
  | .interface .. => "JInterface"
  | .enumeration .. => "JEnumeration"
  | .attribute .. => "JAttribute"
  | .method .. => "JMethod"
  | .constructor .. => "JConstructor"
  | .library .. => "JLibrary"

def Entity.text (entity : Entity) : String := entity.toNaming.text entity.details.word

def Parameter.word : String := "JParameter"

def Signature.word : String := "JSignature"

def Naming.same (left right : Naming) : Bool := left.id == right.id

end CodeFacts
