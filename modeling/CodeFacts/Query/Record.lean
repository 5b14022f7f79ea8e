import CodeFacts.Query.Entity
import CodeFacts.Value.Basic

/-!
Entities as records.
-/

namespace CodeFacts

def Naming.fields (naming : Naming) : List (String × Value) :=
  [("id", .text naming.id), ("name", .text naming.name),
    ("qualified_name", .text naming.qualifiedName)]

/-- The fields that say what an entity is before its names. -/
def Naming.heading (naming : Naming) (word : String) : List (String × Value) :=
  ("entity", .text word) :: ("str", .text (naming.text word)) :: naming.fields

def Access.fields (access : Access) : List (String × Value) :=
  [("visibility", Value.ofText? (access.visibility.map Visibility.word)),
    ("modifiers", .list (access.modifiers.map fun modifier => .int modifier.bit))]

def Parameter.details (parameter : Parameter) : List (String × Value) :=
  [("type", .text parameter.type), ("index", .int parameter.index)]

def Signature.details (signature : Signature) : List (String × Value) :=
  [("parameters", .list (signature.parameters.map fun parameter =>
      .record (parameter.toNaming.fields ++ parameter.details))),
    ("return_type", Value.ofText? signature.result),
    ("exceptions", Value.ofTexts signature.exceptions)]

def Signature.field (signatures : List Signature) : String × Value :=
  ("signatures", .list (signatures.map fun signature =>
    .record (signature.toNaming.fields ++ signature.details)))

def Details.fields : Details → List (String × Value)
  | .package => []
  | .classType access extended implemented =>
      access.fields ++
        [("extended_class", Value.ofText? extended),
          ("implemented_interfaces", Value.ofTexts implemented)]
  | .interface access extended =>
      access.fields ++ [("extended_interfaces", Value.ofTexts extended)]
  | .enumeration access elements implemented =>
      access.fields ++
        [("elements", Value.ofTexts elements),
          ("implemented_interfaces", Value.ofTexts implemented)]
  | .attribute access type value =>
      access.fields ++ [("type", .text type), ("value", Value.ofText? value)]
  | .method access signatures => access.fields ++ [Signature.field signatures]
  | .constructor access signatures => access.fields ++ [Signature.field signatures]
  | .library location date =>
      [("location", Value.ofText? location), ("date", Value.ofText? date)]

def Entity.toValue (entity : Entity) : Value :=
  .record (entity.toNaming.heading entity.details.word ++ entity.details.fields)

def Parameter.toValue (parameter : Parameter) : Value :=
  .record (parameter.toNaming.heading Parameter.word ++ parameter.details)

def Signature.toValue (signature : Signature) : Value :=
  .record (signature.toNaming.heading Signature.word ++ signature.details)

end CodeFacts
