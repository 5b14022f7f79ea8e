import CodeFacts.Query.Basic
import CodeFacts.Query.Record

/-!
Queries asked by their names, with unchecked arguments. A missing container is the default package.
Details may be asked of no identifier, which is to ask all; what is neither a text nor missing is no
identifier of anything.
-/

namespace CodeFacts.Query

inductive Found where
  | one (entity : Entity)
  | many (entities : List Entity)
  | other (value : Value)

def Found.toValue : Found → Value
  | .one entity => entity.toValue
  | .many entities => .list (entities.map Entity.toValue)
  | .other value => value

/-- The entity that is found, if it is one. -/
def Found.naming? : Found → Option Naming
  | .one entity => some entity.toNaming
  | _ => none

def truth (answer : Except Fault Bool) : Option (Except Fault Found) :=
  some (answer.map fun found => .other (.bool found))

def one (answer : Except Fault Entity) : Option (Except Fault Found) := some (answer.map .one)

def many (answer : Except Fault (List Entity)) : Option (Except Fault Found) :=
  some (answer.map .many)

def other {α : Type} (toValue : α → Value) (answer : Except Fault α) :
    Option (Except Fault Found) :=
  some (answer.map fun found => .other (toValue found))

variable {σ : Type} [TripleStore σ]

def askAll (store : σ) (query : String) : Option (Except Fault Found) :=
  match query with
  | "get_all_packages" => many (all store .package)
  | "get_all_classes" => many (all store .classType)
  | "get_all_interfaces" => many (all store .interface)
  | "get_all_enumerations" => many (all store .enumeration)
  | "get_libraries" => many (.ok (libraries store))
  | _ => none

/-- The answer about a package or a type called by a name. -/
def askNamed (store : σ) (query name : String) : Option (Except Fault Found) :=
  match query with
  | "package_exists" => truth (packageExists store name)
  | "class_exists" => truth (typeExists store name .classType)
  | "interface_exists" => truth (typeExists store name .interface)
  | "enumeration_exists" => truth (typeExists store name .enumeration)
  | "get_package" => one (package store name)
  | "get_class" => one (type store name .classType)
  | "get_interface" => one (type store name .interface)
  | "get_enumeration" => one (type store name .enumeration)
  | "get_attributes_into" => many (membersOf store name .attribute)
  | "get_methods_into" => many (membersOf store name .method)
  | "get_constructors_into" => many (membersOf store name .constructor)
  | "get_elements" => other Value.ofTexts (elements store name)
  | _ => none

/-- The answer about what a package or a type called by a name holds. -/
def askInside (store : σ) (query name : String) : Option (Except Fault Found) :=
  match query with
  | "get_packages_into" => many (inside store name .package)
  | "get_classes_into" => many (inside store name .classType)
  | "get_interfaces_into" => many (inside store name .interface)
  | "get_enumerations_into" => many (inside store name .enumeration)
  | _ => none

/-- What is wrong with the name of a member that is no text; nothing is where its type is not
found. -/
def checkMemberName (store : σ) (type : String) (name : Value) (kind : EntityKind) :
    Except Fault Unit := do
  match ← findType store type EntityKind.types with
  | none => return ()
  | some owner =>
      let _ ← (← Identifier.read owner).childOfValues name (.text kind.key)

def askMember (store : σ) (query type : String) (name : Value) : Option (Except Fault Found) :=
  let declared (kind : EntityKind) : Option (Except Fault Found) :=
    match name with
    | .text name => truth (memberExists store type name kind)
    | name => truth ((checkMemberName store type name kind).map fun _ => false)
  let get (kind : EntityKind) : Option (Except Fault Found) :=
    match name with
    | .text name => one (member store type name kind)
    | name => one (checkMemberName store type name kind >>= fun _ => .error (.lookup (.type type)))
  match query with
  | "attribute_exists" => declared .attribute
  | "method_exists" => declared .method
  | "get_attribute" => get .attribute
  | "get_method" => get .method
  | _ => none

def askDetails (store : σ) (query : String) (id : Option String) : Option (Except Fault Found) :=
  match query with
  | "get_signatures" =>
      other (fun found => .list (found.map Signature.toValue)) (signatures store id)
  | "get_parameters" =>
      other (fun found => .list (found.map Parameter.toValue)) (parameters store id)
  | "get_return_type" =>
      other (fun found => (found.map TypeRef.toValue).getD .null) (returnType store id)
  | "get_visibility" =>
      other (fun found => Value.ofText? (found.map Visibility.word)) (visibility store id)
  | "get_modifiers" =>
      other (fun found => Value.ofTexts (found.map Modifier.name)) (modifiers store id)
  | _ => none

/-- The answer about the details of what is no identifier of anything. -/
def askUnknown (query shown : String) : Except Fault Found :=
  match query with
  | "get_signatures" => .error (.lookup (.executable shown))
  | "get_parameters" | "get_return_type" => .error (.lookup (.entity .signature shown))
  | "get_visibility" => .ok (.other .null)
  | "get_modifiers" => .ok (.other (.list []))
  | _ => .error (.unsupported .operation)

def ask (store : σ) (query : String) (arguments : List Value) : Except Fault Found :=
  let first := arguments.head?.getD .null
  let found :=
    match first, arguments[1]? with
    | .text name, some second => askMember store query name second
    | .text name, none => (askNamed store query name).or (askDetails store query (some name))
    | .null, _ => askDetails store query none
    | _, _ => none
  let inside :=
    match first with
    | .text name => askInside store query name
    | first => if first.isNothing then askInside store query "" else none
  ((found.or inside).or (askAll store query)).getD (askUnknown query first.plain)

end CodeFacts.Query
