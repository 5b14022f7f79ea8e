import CodeFacts.Fault
import CodeFacts.Store.ShortName
import CodeFacts.Triple

/-!
Triples written as statements, one for each subject. The namespaces of predicates get keys, and
resources in a namespace with a key are written by their short names; a short name never ends with a
dot, and one only declared after the head of the document was noted is used all the same.
-/

namespace CodeFacts.Turtle

/-! ### Short names -/

/-- The namespaces with keys, and those the head of a document declares. -/
structure Naming where
  spaces : List (String × String)
  declared : List (String × String)

namespace Naming

def start : Naming := ⟨knownSpaces, []⟩

def key? (naming : Naming) (space : String) : Option String :=
  (naming.spaces.find? fun entry => entry.2 == space).map (·.1)

/-- The namespace of a resource and its name there. What cannot be cut may be a namespace. -/
def parts? (naming : Naming) (text : String) : Option (String × String) :=
  if !isWritable text then none
  else
    match splitName? startsLocal text.toList with
    | some (space, name) => some (String.ofList space, String.ofList name)
    | none => (naming.key? text).map fun _ => (text, "")

/-- Whether a name can end a short name. -/
def isShort (name : String) : Bool := name.toList.getLast? != some '.'

/-- The naming with a declaration for a name in a namespace with a key. -/
def declare (naming : Naming) (key space name : String) : Naming :=
  if isShort name ∧ (key, space) ∉ naming.declared then
    { naming with declared := naming.declared ++ [(key, space)] }
  else naming

def freshKey (naming : Naming) : String :=
  "ns" ++ toString (naming.spaces.length - knownSpaces.length + 1)

/-- The naming after a resource was met. Only predicates give a namespace a key. -/
def meet (naming : Naming) (isPredicate : Bool) (text : String) : Naming :=
  match naming.parts? text with
  | none => naming
  | some (space, name) =>
      match naming.key? space with
      | some key => naming.declare key space name
      | none =>
          if isPredicate then
            let key := naming.freshKey
            { naming with spaces := naming.spaces ++ [(key, space)] }.declare key space name
          else naming

/-- The resource that says what kind a thing is of. -/
def kindTerm : String := termSpace ++ "type"

/-- The naming after a triple was met. -/
def meetTriple (naming : Naming) (triple : Triple) : Naming :=
  let naming := naming.meet false triple.subject
  let naming := if triple.predicate = kindTerm then naming else naming.meet true triple.predicate
  if triple.literal then naming else naming.meet false triple.object

def ofTriples (triples : List Triple) : Naming := triples.foldl meetTriple start

def short? (naming : Naming) (text : String) : Option (List Char) := do
  let (space, name) ← naming.parts? text
  let key ← naming.key? space
  if isShort name then
    some (key.toList ++ ':' :: name.toList.flatMap fun c =>
      if c = '(' ∨ c = ')' then ['\\', c] else [c])
  else none

end Naming

/-! ### Terms -/

/-- The resource that stands for the empty list. -/
def emptyList : String := termSpace ++ "nil"

def resource (naming : Naming) (text : String) : Except Fault (List Char) :=
  if text = emptyList then .ok ['(', ')']
  else
    match naming.short? text with
    | some short => .ok short
    | none =>
        if isWritable text then .ok ('<' :: text.toList ++ ['>']) else .error (.unwritable text)

def predicate (naming : Naming) (text : String) : Except Fault (List Char) :=
  if text = Naming.kindTerm then .ok ['a'] else resource naming text

/-- Three quotes in a row escaped. -/
def escapeThree : List Char → List Char
  | '"' :: '"' :: '"' :: rest => '\\' :: '"' :: '\\' :: '"' :: '\\' :: '"' :: escapeThree rest
  | c :: rest => c :: escapeThree rest
  | [] => []

/-- A quote at the end escaped, unless a backslash stands before it. -/
def escapeLast (text : List Char) : List Char :=
  match text.reverse with
  | '"' :: '\\' :: _ => text
  | '"' :: rest => rest.reverse ++ ['\\', '"']
  | _ => text

/-- A literal as it is written: between three quotes if it has several lines. Carriage returns are
escaped only there. -/
def literal (text : String) : List Char :=
  let text := text.toList
  let doubled (c : Char) : List Char := if c = '\\' then ['\\', '\\'] else [c]
  if '\n' ∈ text then
    let inside := escapeLast (escapeThree (text.flatMap doubled))
    let quotes := ['"', '"', '"']
    quotes ++ inside.flatMap (fun c => if c = '\r' then ['\\', 'r'] else [c]) ++ quotes
  else
    '"' :: text.flatMap (fun c => if c = '"' then ['\\', '"'] else doubled c) ++ ['"']

def object (naming : Naming) (triple : Triple) : Except Fault (List Char) :=
  if triple.literal then .ok (literal triple.object) else resource naming triple.object

/-! ### Order -/

/-- How often a resource is the object of a triple. -/
def references (triples : List Triple) (resource : String) : Nat :=
  triples.countP fun triple => !triple.literal && triple.object == resource

def inOrder (texts : List String) : List String :=
  texts.eraseDups.mergeSort fun left right => decide (left ≤ right)

/-- Subjects in the order of their statements: those said to be classes first, then those that fewer
triples lead to. -/
def subjects (triples : List Triple) : List String :=
  let classTerm := schemaSpace ++ "Class"
  let isClass (triple : Triple) : Bool :=
    triple.predicate == Naming.kindTerm && !triple.literal && triple.object == classTerm
  let classes := inOrder ((triples.filter isClass).map (·.subject))
  let others := (inOrder (triples.map (·.subject))).filter (· ∉ classes)
  classes ++ others.mergeSort fun left right =>
    decide (references triples left ≤ references triples right)

/-- Predicates in the order they are written: kinds first, then labels, then the others. -/
def predicates (triples : List Triple) : List String :=
  let first := [Naming.kindTerm, schemaSpace ++ "label"]
  let all := inOrder (triples.map (·.predicate))
  first.filter (· ∈ all) ++ all.filter (· ∉ first)

/-- The triples of one subject and one predicate, literals last. -/
def objects (triples : List Triple) (subject predicate : String) : List Triple :=
  (Triple.sorted (triples.filter fun triple =>
    triple.subject == subject && triple.predicate == predicate)).mergeSort
      fun left right => !left.literal || right.literal

/-! ### Documents -/

def separated (separator : List Char) (parts : List (List Char)) : List Char :=
  match parts with
  | [] => []
  | part :: rest => part ++ rest.flatMap (separator ++ ·)

def statement (naming : Naming) (triples : List Triple) (subject : String) :
    Except Fault (List Char) := do
  let start ← resource naming subject
  let ofSubject := triples.filter (·.subject == subject)
  let lines ← (predicates ofSubject).mapM fun verb => do
    let verbText ← predicate naming verb
    let objects ← (objects ofSubject subject verb).mapM (object naming)
    return verbText ++ ' ' :: separated ",\n        ".toList objects
  return '\n' :: start ++ ' ' :: separated " ;\n    ".toList lines ++ " .\n".toList

def head (naming : Naming) : List Char :=
  (naming.declared.mergeSort fun left right => decide (left.1 ≤ right.1)).flatMap
    fun (key, space) => ("@prefix " ++ key ++ ": <" ++ space ++ "> .\n").toList

def write (triples : List Triple) : Except Fault (List Char) := do
  let naming := Naming.ofTriples triples
  let statements ← (subjects triples).mapM (statement naming triples)
  return head naming ++ statements.flatten ++ ['\n']

end CodeFacts.Turtle
