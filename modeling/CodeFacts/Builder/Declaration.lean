import CodeFacts.Builder.Draft

/-!
The additions each declaration makes: what kind of thing it is, what is said of it, and at the end
that its container holds it.
-/

namespace CodeFacts.Declaration

def kindWrites (id : String) (kind : EntityKind) : List Write :=
  [.resource id .subClassOf kind.uri]

/-- The word of a visibility, refused where it is no visibility; without one nothing is said. -/
def visibilityWrites (id : String) : (visibility : Value) → List Write
  | .null => []
  | visibility =>
      match Visibility.ofValue visibility with
      | .ok visibility => [.literal id .hasVisibility (.text visibility.word)]
      | .error fault => [.refuse fault]

def headWrites (id : String) (kind : EntityKind) (visibility : Value) (modifiers : List Nat) :
    List Write :=
  kindWrites id kind ++
    [.literal id .hasModifiers (.text (toString (Modifier.mask modifiers)))] ++
    visibilityWrites id visibility

def containment (container : Identifier) (kind : EntityKind) (id : String) : Write :=
  .resource container.text (.contains kind) id

def packageWrites (container id : Identifier) : List Write :=
  kindWrites id.text .package ++ [containment container .package id.text]

def classWrites (visibility : Value) (modifiers : List Nat) (extended : Option TypeRef)
    (implemented : List TypeRef) (container id : Identifier) : List Write :=
  headWrites id.text .classType visibility modifiers ++
    extended.toList.map (.resourceType id.text .extendsClass) ++
    implemented.map (.resourceType id.text .implementsInterface) ++
    [containment container .classType id.text]

def interfaceWrites (visibility : Value) (modifiers : List Nat) (extended : List TypeRef)
    (container id : Identifier) : List Write :=
  headWrites id.text .interface visibility modifiers ++
    extended.map (.resourceType id.text .extendsInterface) ++
    [containment container .interface id.text]

def enumerationWrites (visibility : Value) (modifiers : List Nat) (elements : Value)
    (implemented : List TypeRef) (container id : Identifier) : List Write :=
  headWrites id.text .enumeration visibility modifiers ++
    implemented.map (.resourceType id.text .implementsInterface) ++
    (match elements.items? with
      | some items => [.elements id.text .containsElement items]
      | none => [.refuse (.unsupported .operation)]) ++
    [containment container .enumeration id.text]

def attributeWrites (visibility : Value) (modifiers : List Nat) (type : TypeRef) (value : Value)
    (container id : Identifier) : List Write :=
  headWrites id.text .attribute visibility modifiers ++
    [.literalType id.text .attributeType type] ++
    (match value with
      | .null => []
      | value => [.literal id.text .attributeValue value]) ++
    [containment container .attribute id.text]

def parameterWrites (signature : Identifier) (index : Nat) (name : Value) (type : TypeRef) :
    List Write :=
  match signature.childOfValues name (.text EntityKind.parameter.key) with
  | .error fault => [.refuse fault]
  | .ok id =>
      kindWrites id.text .parameter ++
        [.literalType id.text .parameterType type,
          .literal id.text .parameterIndex (.text (toString index)),
          containment signature .parameter id.text]

/-- The parameters of a signature from a position on. -/
def parametersWrites (signature : Identifier) : Nat → List Value → List TypeRef → List Write
  | index, name :: names, type :: types =>
      parameterWrites signature index name type ++
        parametersWrites signature (index + 1) names types
  | _, _, _ => []

/-- A signature. It is refused where it has not one type for each parameter. -/
def signatureWrites (owner signature : Identifier) (parameters : Value) (types : List TypeRef)
    (result : Option TypeRef) (exceptions : List TypeRef) : List Write :=
  match parameters.items? with
  | none => [.refuse (.unsupported .operation)]
  | some names =>
      if names.length ≠ types.length then
        [.refuse (.value (.parameterCount names.length types.length))]
      else
        kindWrites signature.text .signature ++
          parametersWrites signature 0 names types ++
          result.toList.map (.literalType signature.text .returnType) ++
          exceptions.map (.resourceType signature.text .throwsException) ++
          [containment owner .signature signature.text]

def overloadName (overload : Value) : String := "_" ++ overload.plain

def executableWrites (kind : EntityKind) (visibility : Value) (modifiers : List Nat)
    (overload parameters : Value) (types : List TypeRef) (result : Option TypeRef)
    (exceptions : List TypeRef) (container id : Identifier) : List Write :=
  headWrites id.text kind visibility modifiers ++
    (match id.child (overloadName overload) EntityKind.signature.key with
      | .error fault => [.refuse fault]
      | .ok signature => signatureWrites id signature parameters types result exceptions) ++
    [containment container kind id.text]

def libraryText (library : String) : String := resource (assetPattern ++ library)

/-- A library, with the place it was read from and the date. -/
def libraryWrites (library location date : String) : List Write :=
  [.resource assetRoot .containsLibrary (libraryText library),
    .literal (libraryText library) .libraryLocation (.text location),
    .literal (libraryText library) .libraryDate (.text date)]

end CodeFacts.Declaration
