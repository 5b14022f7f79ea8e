import CodeFacts.Source.Declaration
import CodeFacts.Source.Node

/-!
Declarations read from the nodes of a unit. Nodes without a name are left out with all that is in
them, and what stands in bodies of methods is not read.
-/

namespace CodeFacts.Source

/-! ### Types and parameters -/

def annotationTypes : List String := ["marker_annotation", "annotation"]

/-- How many pairs of brackets a node has; none if it is missing. -/
def bracketCount (node : Option Node) : Nat :=
  (node.map fun node => node.text.toList.count '[').getD 0

/-- The name of a scoped type: the names of its parts with dots between them. -/
def scopedName : List (Node × Written) → Except Fault (List String)
  | [] => .ok []
  | (part, written) :: rest => do
      if !part.head.named then scopedName rest
      else if part.type = "type_identifier" then return part.text :: (← scopedName rest)
      else if part.type = "scoped_type_identifier" ∨ part.type = "generic_type" then
        let name := (← written).name
        return name :: (← scopedName rest)
      else scopedName rest

mutual

def writtenType : Node → Written
  | .mk head children =>
      let node := Node.mk head children
      let parts := writtenParts children
      let chosen (part : Option (Node × Written)) : Written :=
        match part with
        | some (_, written) => written
        | none => .error (.index .item)
      match head.type with
      | "array_type" =>
          match parts.find? (·.1.head.field == some "element") with
          | none => .error (.unsupported .part)
          | some (_, written) => do
              let element ← written
              return { element with
                dimensions := element.dimensions + bracketCount (node.field? "dimensions") }
      | "generic_type" =>
          chosen (parts.find? fun part =>
            decide (part.1.type ∈ ["type_identifier", "scoped_type_identifier"]))
      | "annotated_type" =>
          chosen (parts.filter fun part =>
            part.1.head.named && decide (part.1.type ∉ annotationTypes)).getLast?
      | "scoped_type_identifier" => do
          let names ← scopedName parts
          return ⟨Dotted.join names, 0⟩
      | _ => .ok ⟨head.text, 0⟩

def writtenParts : List Node → List (Node × Written)
  | [] => []
  | child :: rest => (child, writtenType child) :: writtenParts rest

end

def Written.extend (written : Written) (dimensions : Nat) : Written :=
  written.map fun type => { type with dimensions := type.dimensions + dimensions }

/-- The modifier keywords of a declaration, annotations left out. -/
def keywords (node : Node) : List String :=
  (node.ofTypes ["modifiers"]).flatMap fun modifiers =>
    (modifiers.children.map Node.type).filter (· ∉ annotationTypes)

def typeVariables (node : Node) : List String :=
  match node.field? "type_parameters" with
  | none => []
  | some parameters =>
      (parameters.ofTypes ["type_parameter"]).filterMap fun parameter =>
        (parameter.first? "type_identifier").map Node.text

def typeList (clause : Option Node) : List Written :=
  clause.toList.flatMap fun clause =>
    (clause.ofTypes ["type_list"]).flatMap fun list => list.namedChildren.map writtenType

def exceptions (node : Node) : List Written :=
  (node.ofTypes ["throws"]).flatMap fun clause => clause.namedChildren.map writtenType

/-- A parameter with a name and a type. A variable number of arguments is an array of them. -/
def parameter? (node : Node) : Option (String × Written) :=
  match node.type with
  | "formal_parameter" => do
      let name ← node.field? "name"
      let type ← node.field? "type"
      return (name.text, (writtenType type).extend (bracketCount (node.field? "dimensions")))
  | "spread_parameter" => do
      let declarator ← (node.ofTypes ["variable_declarator"]).head?
      let name ← declarator.field? "name"
      let type ← node.namedChildren.find? fun child =>
        decide (child.type ∉ ["modifiers", "variable_declarator"])
      return (name.text, (writtenType type).extend 1)
  | _ => none

def parameters (node : Node) : List (String × Written) :=
  match node.field? "parameters" with
  | none => []
  | some list => list.namedChildren.filterMap parameter?

/-! ### Members -/

/-- The declarators of a field declaration that have a name. -/
def declarators (node : Node) : List Declarator :=
  (node.fieldAll "declarator").filterMap fun declarator =>
    (declarator.field? "name").map fun name =>
      { name := name.text
        dimensions := bracketCount (declarator.field? "dimensions")
        value := (declarator.field? "value").map Node.text }

/-- A field declaration, which must have a type. -/
def fieldDeclaration? (node : Node) : Option FieldDeclaration :=
  (node.field? "type").map fun type =>
    { keywords := keywords node, type := writtenType type, declarators := declarators node }

def executable (node : Node) (name : String) (documentation : Option DocEntry) :
    ExecutableDeclaration where
  keywords := keywords node
  typeVariables := typeVariables node
  name := name
  type := (node.field? "type").map fun type =>
    (writtenType type).extend (bracketCount (node.field? "dimensions"))
  parameters := parameters node
  exceptions := exceptions node
  hasBody := (node.field? "body").isSome
  documentation := documentation

def typeSort? : String → Option TypeSort
  | "class_declaration" => some .classType
  | "interface_declaration" => some .interface
  | "enum_declaration" => some .enumeration
  | _ => none

def extendedClass (node : Node) : Option Written :=
  (node.field? "superclass").bind fun clause => clause.namedChildren.head?.map writtenType

/-- The elements of an enumeration that have a name. -/
def enumElements (node : Node) : List String :=
  (node.field? "body").toList.flatMap fun body =>
    (body.ofTypes ["enum_constant"]).filterMap fun element =>
      (element.field? "name").map Node.text

/-- A type declaration without its members. Which clauses count depends on its sort. -/
def typeHeading (node : Node) (sort : TypeSort) (name : String)
    (documentation : Option DocEntry) : TypeHeading where
  sort := sort
  keywords := keywords node
  typeVariables := typeVariables node
  name := name
  extended := if sort = .classType then extendedClass node else none
  interfaces :=
    if sort = .interface then typeList (node.ofTypes ["extends_interfaces"]).head?
    else typeList (node.field? "interfaces")
  elements := if sort = .enumeration then enumElements node else []
  documentation := documentation

mutual

def member? (documentation : Option DocEntry) : Node → Option Member
  | .mk head children =>
      let node := Node.mk head children
      let name := (node.field? "name").map Node.text
      match typeSort? head.type with
      | some sort =>
          name.map fun name =>
            .type (typeHeading node sort name documentation) (bodyMembers children)
      | none =>
          match head.type with
          | "field_declaration" | "constant_declaration" => (fieldDeclaration? node).map .field
          | "method_declaration" =>
              name.map fun name => .method (executable node name documentation)
          | "constructor_declaration" => some (.constructor (executable node "" none))
          | _ => none

/-- The members in the first of some nodes that is a body. -/
def bodyMembers : List Node → List Member
  | [] => []
  | child :: rest =>
      if child.head.field == some "body" then membersOf child else bodyMembers rest

/-- The members in a body. The members of an enumeration stand in parts of its body. -/
def membersOf : Node → List Member
  | .mk head children =>
      if head.type = "enum_body" then partMembers children else membersAfter none children

def partMembers : List Node → List Member
  | [] => []
  | child :: rest =>
      (if child.type = "enum_body_declarations" then membersIn child else []) ++ partMembers rest

def membersIn : Node → List Member
  | .mk _ children => membersAfter none children

/-- The members that named nodes declare, each with the named node before it. -/
def membersAfter (previous : Option Node) : List Node → List Member
  | [] => []
  | child :: rest =>
      if child.head.named then
        (member? (Node.documentation previous) child).toList ++ membersAfter (some child) rest
      else membersAfter previous rest

end

/-! ### Units -/

def nameTypes : List String := ["scoped_identifier", "identifier"]

def packageName (root : Node) : String :=
  match (root.ofTypes ["package_declaration"]).head? with
  | none => ""
  | some declaration =>
      ((declaration.namedChildren.find? fun child => decide (child.type ∈ nameTypes)).map
        Node.text).getD ""

/-- What an import declaration imports. Static imports name members and count for nothing. -/
def import? (node : Node) : Option Import :=
  if (node.ofTypes ["static"]).isEmpty then
    (node.ofTypes nameTypes).head?.map fun name =>
      ⟨name.text, !(node.ofTypes ["asterisk"]).isEmpty⟩
  else none

/-- The types that some nodes declare, each with the named node before it. -/
def typesAfter (previous : Option Node) : List Node → List Member
  | [] => []
  | child :: rest =>
      let here :=
        match typeSort? child.type with
        | some _ => (member? (Node.documentation previous) child).toList
        | none => []
      here ++ typesAfter (if child.head.named then some child else previous) rest

def Outline.ofRoot (root : Node) : Outline where
  package := packageName root
  imports := (root.ofTypes ["import_declaration"]).filterMap import?
  types := typesAfter none root.children

end CodeFacts.Source
