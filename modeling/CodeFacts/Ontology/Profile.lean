import CodeFacts.Ontology.Basic

/-!
The rules of a model of Java code.
-/

namespace CodeFacts.Ontology

def linkRule (subject : EntityKind) (predicate : Predicate) (object : EntityKind) : Relation :=
  ⟨subject.pattern, predicate.uri, .resource object.pattern⟩

def noteRule (subject : EntityKind) (predicate : Predicate) : Relation :=
  ⟨subject.pattern, predicate.uri, .literal⟩

/-- The rules about the libraries a model was built from. -/
def libraryRelations : List Relation :=
  [⟨assetPattern, Predicate.containsLibrary.uri, .resource assetPattern⟩,
    ⟨assetPattern, Predicate.libraryLocation.uri, .literal⟩,
    ⟨assetPattern, Predicate.libraryDate.uri, .literal⟩]

/-- Every entity is of its kind. -/
def kindRelations : List Relation :=
  EntityKind.all.map fun kind => ⟨kind.pattern, Predicate.subClassOf.uri, .resource kind.uri⟩

/-- Which entities may stand directly inside which. -/
def containmentRelations : List Relation :=
  [linkRule .package (.contains .package) .package] ++
    (EntityKind.package :: EntityKind.types).flatMap (fun container =>
      EntityKind.types.map fun kind => linkRule container (.contains kind) kind) ++
    EntityKind.types.flatMap (fun container =>
      [linkRule container (.contains .attribute) .attribute,
        linkRule container (.contains .method) .method]) ++
    [linkRule .classType (.contains .constructor) .constructor,
      linkRule .enumeration (.contains .constructor) .constructor,
      linkRule .constructor (.contains .signature) .signature,
      linkRule .method (.contains .signature) .signature,
      linkRule .signature (.contains .parameter) .parameter,
      ⟨EntityKind.enumeration.pattern, Predicate.containsElement.uri,
        .collection Bounds.atLeastZero⟩]

/-- Which types may extend, implement and throw which. -/
def hierarchyRelations : List Relation :=
  [linkRule .classType .extendsClass .classType,
    linkRule .classType .implementsInterface .interface,
    linkRule .enumeration .implementsInterface .interface,
    linkRule .interface .extendsInterface .interface,
    linkRule .signature .throwsException .classType]

/-- The entities that are declared with a visibility and modifiers. -/
def declaredKinds : List EntityKind := EntityKind.types ++ [.attribute, .constructor, .method]

/-- Which entities carry which literals. -/
def literalRelations : List Relation :=
  declaredKinds.flatMap (fun subject =>
      [noteRule subject .hasVisibility, noteRule subject .hasModifiers]) ++
    [noteRule .attribute .attributeType,
      noteRule .attribute .attributeValue,
      noteRule .parameter .parameterType,
      noteRule .parameter .parameterIndex,
      noteRule .signature .returnType]

def structureRelations : List Relation :=
  kindRelations ++ containmentRelations ++ hierarchyRelations ++ literalRelations

/-- The ontology of some rules, up to the first that cannot be added. -/
def ofRelations (relations : List Relation) : Ontology := (empty.defineAll relations).1

def java : Ontology := ofRelations (libraryRelations ++ structureRelations)

end CodeFacts.Ontology
