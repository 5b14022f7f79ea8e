/-!
The words of the model: the kinds of entity it speaks of, the predicates between them, and the
texts that stand for both in triples.
-/

namespace CodeFacts

/-- The text every resource of the model starts with. -/
def modelSpace : String := "http://www.rdfcoder.org/2007/1.0#"

/-- The space of the predicate that says what kind an entity is of. -/
def schemaSpace : String := "http://www.w3.org/2000/01/rdf-schema#"

/-- The text of the resource with a given local name. -/
def resource (name : String) : String := modelSpace ++ name

/-- The kinds of entity that make up an identifier. -/
inductive EntityKind where
  | package
  | classType
  | interface
  | enumeration
  | attribute
  | constructor
  | method
  | signature
  | parameter
  deriving DecidableEq, Repr

namespace EntityKind

def key : EntityKind → String
  | .package => "jpackage"
  | .classType => "jclass"
  | .interface => "jinterface"
  | .enumeration => "jenumeration"
  | .attribute => "jattribute"
  | .constructor => "jconstructor"
  | .method => "jmethod"
  | .signature => "jsignature"
  | .parameter => "jparameter"

/-- Every kind, from the outermost to the innermost. -/
def all : List EntityKind :=
  [.package, .classType, .interface, .enumeration, .attribute, .constructor, .method, .signature,
    .parameter]

/-- The kinds that declare a type, in the order lookups try them. -/
def types : List EntityKind := [.classType, .interface, .enumeration]

/-- How a kind is written as the pattern of a rule. -/
def pattern (kind : EntityKind) : String := kind.key ++ ":"

def uri (kind : EntityKind) : String := resource kind.key

theorem key_injective {left right : EntityKind} (same : left.key = right.key) : left = right := by
  cases left <;> cases right <;> first | rfl | (revert same; decide)

end EntityKind

def primitiveKey : String := "jprimitive"

def arrayKey : String := "jarray"

/-- How a library is written as the pattern of a rule. -/
def assetPattern : String := "asset:"

/-- The resource every library hangs from. -/
def assetRoot : String := resource assetPattern

/-- What a triple of the model says about its subject. -/
inductive Predicate where
  | subClassOf
  | contains (kind : EntityKind)
  | containsElement
  | attributeType
  | attributeValue
  | parameterType
  | parameterIndex
  | returnType
  | extendsClass
  | implementsInterface
  | extendsInterface
  | throwsException
  | hasVisibility
  | hasModifiers
  | containsLibrary
  | libraryLocation
  | libraryDate
  deriving DecidableEq, Repr

namespace Predicate

def localName : Predicate → String
  | .subClassOf => "subClassOf"
  | .contains .package => "contains_package"
  | .contains .classType => "contains_class"
  | .contains .interface => "contains_interface"
  | .contains .enumeration => "contains_enumeration"
  | .contains .attribute => "contains_attribute"
  | .contains .constructor => "contains_constructor"
  | .contains .method => "contains_method"
  | .contains .signature => "contains_signature"
  | .contains .parameter => "contains_parameter"
  | .containsElement => "contains_element"
  | .attributeType => "attribute_type"
  | .attributeValue => "attribute_value"
  | .parameterType => "parameter_type"
  | .parameterIndex => "parameter_index"
  | .returnType => "return_type"
  | .extendsClass => "extends_class"
  | .implementsInterface => "implements_int"
  | .extendsInterface => "extends_int"
  | .throwsException => "throws"
  | .hasVisibility => "has_visibility"
  | .hasModifiers => "has_modifiers"
  | .containsLibrary => "contains_library"
  | .libraryLocation => "library_location"
  | .libraryDate => "library_date"

def uri : Predicate → String
  | .subClassOf => schemaSpace ++ "subClassOf"
  | predicate => resource predicate.localName

end Predicate

end CodeFacts
