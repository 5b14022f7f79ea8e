import CodeFacts.Dotted
import CodeFacts.Position

/-!
Hierarchical identifiers: a space and a path of fragments, each with a qualifier, outermost first.
In the text form a qualifier is written only where it differs from the one before it, and reading
the text form gives the identifier back.
-/

namespace CodeFacts

/-- The marks between the parts of an identifier, in the order they are looked for. -/
def reservedMarks : List Char := ['.', ':', '#']

/-- The first of the reserved marks that a text holds. -/
def reservedMark? (text : String) : Option Char :=
  reservedMarks.find? fun mark => decide (mark ∈ text.toList)

structure Fragment where
  name : String
  qualifier : String
  name_plain : reservedMark? name = none
  qualifier_plain : reservedMark? qualifier = none
  qualifier_ne_empty : qualifier ≠ ""
  deriving DecidableEq

namespace Fragment

/-- What is wrong with the name of a fragment. -/
def nameProblems (name : String) : List Problem :=
  match reservedMark? name with
  | some mark => [⟨["fragment"], .broken (.reservedInFragment name mark)⟩]
  | none => []

/-- What is wrong with the qualifier of a fragment. -/
def qualifierProblems (qualifier : String) : List Problem :=
  if qualifier = "" then [⟨["qualifier"], .broken .emptyQualifier⟩]
  else
    match reservedMark? qualifier with
    | some mark => [⟨["qualifier"], .broken (.reservedInQualifier qualifier mark)⟩]
    | none => []

/-- The fragment of a name and a qualifier; both are checked before either is refused. -/
def make (name qualifier : String) : Except Fault Fragment :=
  if valid : reservedMark? name = none ∧ reservedMark? qualifier = none ∧ qualifier ≠ "" then
    .ok ⟨name, qualifier, valid.1, valid.2.1, valid.2.2⟩
  else .error (.fields (nameProblems name ++ qualifierProblems qualifier))

/-- What is wrong with an unchecked value given for a field that must be a text. -/
def valueProblems (field : String) (problems : String → List Problem) : Value → List Problem
  | .text text => problems text
  | _ => [⟨[field], .notText⟩]

def ofValues (name qualifier : Value) : Except Fault Fragment :=
  match name, qualifier with
  | .text name, .text qualifier => make name qualifier
  | name, qualifier =>
      .error (.fields (valueProblems "fragment" nameProblems name ++
        valueProblems "qualifier" qualifierProblems qualifier))

def text (fragment : Fragment) : String :=
  fragment.qualifier ++ ":" ++ fragment.name

end Fragment

/-- Whether a text ends with its only hash mark. -/
def isSpace (text : String) : Bool :=
  match Text.cut '#' text.toList with
  | some (_, []) => true
  | _ => false

/-- The text an identifier starts with; it ends with its only hash mark. -/
structure Space where
  text : String
  closed : isSpace text = true
  deriving DecidableEq

namespace Space

def make (text : String) : Except BrokenRule Space :=
  if closed : isSpace text = true then .ok ⟨text, closed⟩
  else if text = "" then .error .emptySpace
  else .error (.malformedSpace text)

/-- The space of what stands before a first hash mark. -/
def before (start : List Char) (absent : '#' ∉ start) : Space :=
  ⟨String.ofList (start ++ ['#']), by simp [isSpace, Text.cut_append_mark [] absent]⟩

def model : Space := ⟨modelSpace, by decide +kernel⟩

end Space

/-- A space and a path of fragments, outermost first. -/
structure Identifier where
  space : Space
  fragments : List Fragment
  deriving DecidableEq

namespace Identifier

def empty : Identifier := ⟨Space.model, []⟩

/-- The sections of a path; a qualifier is left out where it is the current one. -/
def sectionTexts : (current : Option String) → List Fragment → List (List Char)
  | _, [] => []
  | current, fragment :: rest =>
      let name := fragment.name.toList
      let part :=
        if current = some fragment.qualifier then name
        else fragment.qualifier.toList ++ ':' :: name
      part :: sectionTexts (some fragment.qualifier) rest

def text (id : Identifier) : String :=
  id.space.text ++ String.ofList (Text.joinWith '.' (sectionTexts none id.fragments))

def size (id : Identifier) : Nat := id.fragments.length

/-- The fragment at a position; negative positions count from the end. -/
def fragmentAt (id : Identifier) (position : Int) : Except Fault Fragment :=
  pick id.fragments position

def head (id : Identifier) : Except Fault Identifier :=
  match id.fragments with
  | [] => .error (.emptyIdentifier .head)
  | fragment :: _ => .ok { id with fragments := [fragment] }

/-- The identifier of the last fragment alone, empty if there is none. -/
def tail (id : Identifier) : Identifier :=
  { id with fragments := id.fragments.getLast?.toList }

/-- The identifier without its last fragment, empty if there is none. -/
def parent (id : Identifier) : Identifier :=
  { id with fragments := id.fragments.dropLast }

/-- The identifier without some of its last fragments. -/
def ancestor (id : Identifier) (count : Nat) : Identifier :=
  { id with fragments := id.fragments.take (id.size - count) }

def sections (id : Identifier) (start stop : Int) : Except Fault Identifier :=
  if start < 0 ∨ (id.size : Int) < stop ∨ stop < start then
    .error (.index (.sections (Text.decimal start) (Text.decimal stop) id.size))
  else .ok { id with fragments := (id.fragments.take stop.toNat).drop start.toNat }

/-- The fragments from one unchecked position up to another. Positions are compared with each other
before they have to be whole numbers. -/
def sectionsOfValues (id : Identifier) (start stop : Value) : Except Fault Identifier := do
  let less (left right : Value) : Except Fault Bool :=
    match left.less? right with
    | some answer => .ok answer
    | none => .error (.unsupported .operation)
  if ← less start (.int 0) <||> less (.int id.size) stop <||> less stop start then
    .error (.index (.sections start.plain stop.plain id.size))
  else
    match start.whole?, stop.whole? with
    | some start, some stop => id.sections start stop
    | _, _ => .error (.unsupported .operation)

def lastFragment (id : Identifier) : Except Fault Fragment :=
  match id.fragments.getLast? with
  | some fragment => .ok fragment
  | none => .error (.emptyIdentifier .lastFragment)

/-- The qualifier of the last fragment. -/
def strongestQualifier (id : Identifier) : Except Fault String :=
  match id.fragments.getLast? with
  | some fragment => .ok fragment.qualifier
  | none => .error (.emptyIdentifier .lastQualifier)

/-- The name of the outermost fragment with a qualifier. -/
def firstWith? (id : Identifier) (qualifier : String) : Option String :=
  (id.fragments.find? (·.qualifier == qualifier)).map (·.name)

/-- The name of the innermost fragment with a qualifier. -/
def lastWith? (id : Identifier) (qualifier : String) : Option String :=
  (id.fragments.reverse.find? (·.qualifier == qualifier)).map (·.name)

def push (id : Identifier) (fragment : Fragment) : Identifier :=
  { id with fragments := id.fragments ++ [fragment] }

/-- The identifier with a fragment of a name and a qualifier at its end. -/
def child (id : Identifier) (name qualifier : String) : Except Fault Identifier :=
  (Fragment.make name qualifier).map id.push

/-- The identifier with a fragment of an unchecked name and qualifier at its end. -/
def childOfValues (id : Identifier) (name qualifier : Value) : Except Fault Identifier :=
  (Fragment.ofValues name qualifier).map id.push

theorem childOfValues_text (id : Identifier) (name qualifier : String) :
    id.childOfValues (.text name) (.text qualifier) = id.child name qualifier :=
  rfl

/-- The identifier without its last fragment, which it must have. -/
def pop (id : Identifier) : Except Fault Identifier :=
  match id.fragments with
  | [] => .error (.emptyIdentifier .pop)
  | _ :: _ => .ok id.parent

@[simp] theorem parent_push (id : Identifier) (fragment : Fragment) :
    (id.push fragment).parent = id := by
  simp [parent, push]

@[simp] theorem size_push (id : Identifier) (fragment : Fragment) :
    (id.push fragment).size = id.size + 1 := by
  simp [size, push]

@[simp] theorem pop_push (id : Identifier) (fragment : Fragment) :
    (id.push fragment).pop = .ok id := by
  have parent := parent_push id fragment
  cases shape : (id.push fragment).fragments with
  | nil => simp [push] at shape
  | cons => simp only [pop, shape, parent]

def withSpace (id : Identifier) (text : String) : Except Fault Identifier :=
  match Space.make text with
  | .ok space => .ok { id with space }
  | .error rule => .error (.value (.broken rule))

/-- The identifier in the space of an unchecked text; what stands for nothing is the empty one. -/
def withSpaceValue (id : Identifier) : (space : Value) → Except Fault Identifier
  | .text space => id.withSpace space
  | space => if space.isNothing then id.withSpace "" else .error (.unsupported .part)

/-- An identifier from the text of its space and its fragments. -/
def make (space : String) (fragments : List Fragment) : Except Fault Identifier :=
  match Space.make space with
  | .ok space => .ok ⟨space, fragments⟩
  | .error rule => .error (.field ["prefix"] (.broken rule))

/-- An identifier from the unchecked text of its space and its fragments. -/
def ofSpaceValue (space : Value) (fragments : List Fragment) : Except Fault Identifier :=
  match space with
  | .text space => make space fragments
  | _ => .error (.field ["prefix"] .notText)

/-- The dotted name of an identifier: the names of its fragments, empty ones left out. -/
def dottedName (id : Identifier) : String :=
  Dotted.join ((id.fragments.map (·.name)).filter (· != ""))

/-- The fragments of the sections of a text, a section without a qualifier having the current one.
The whole text is for the message alone. -/
def readSections (whole : String) : (current : Option String) → List (List Char) →
    Except Fault (List Fragment)
  | _, [] => .ok []
  | current, token :: rest => do
      let fragment ←
        match Text.cut ':' token, current with
        | some (qualifier, name), _ => Fragment.make (String.ofList name) (String.ofList qualifier)
        | none, some qualifier => Fragment.make (String.ofList token) qualifier
        | none, none => .error (.value (.unqualified whole))
      return fragment :: (← readSections whole (some fragment.qualifier) rest)

def readLocal (whole : String) (space : Space) (path : List Char) : Except Fault Identifier :=
  if path = [] then .ok ⟨space, []⟩
  else (readSections whole none (Text.splitOn '.' path)).map fun fragments => ⟨space, fragments⟩

/-- The identifier of a text. What stands up to the first hash mark is its space; without one it is
in the space of this model. -/
def read (text : String) : Except Fault Identifier :=
  match found : Text.cut '#' text.toList with
  | some (start, rest) => readLocal text (Space.before start (Text.eq_of_cut found).2) rest
  | none => readLocal text Space.model text.toList

/-- The identifier of a dotted package name; the empty name gives the default package. -/
def ofPackage (name : String) : Except Fault Identifier :=
  read (EntityKind.package.key ++ ":" ++ name)

/-- The packages in the dotted name of a type: every segment but the last. -/
def packagesOf (name : String) : Except Fault (List Fragment) :=
  let outer := Dotted.outer name
  if outer = "" then .ok []
  else (Dotted.segments outer).mapM (Fragment.make · EntityKind.package.key)

def ofTypeName (name qualifier : String) : Except Fault Identifier := do
  let packages ← packagesOf name
  let last ← Fragment.make (Dotted.simple name) qualifier
  return { empty with fragments := packages ++ [last] }

/-- The identifier of a type by its dotted name and an unchecked qualifier. -/
def ofTypeValue (name : String) (qualifier : Value) : Except Fault Identifier := do
  let packages ← packagesOf name
  let last ← Fragment.ofValues (.text (Dotted.simple name)) qualifier
  return { empty with fragments := packages ++ [last] }

theorem ofTypeValue_text (name qualifier : String) :
    ofTypeValue name (.text qualifier) = ofTypeName name qualifier :=
  rfl

/-- The package of what belongs to no package. -/
def defaultPackage : Identifier :=
  { empty with
    fragments := [⟨"", "jpackage", by decide +kernel, by decide +kernel, by decide +kernel⟩] }

end Identifier

/-- The qualifier a term ends with, its mark included: of the part after the first hash mark, the
qualifier of the last section that has one. A term without qualifiers is its own. -/
def qualifierPattern (term : String) : String :=
  let rest :=
    match Text.cut '#' term.toList with
    | some (_, after) => after
    | none => term.toList
  match (Text.splitOn '.' rest).reverse.findSome? (Text.cut ':') with
  | some (qualifier, _) => String.ofList (qualifier ++ [':'])
  | none => String.ofList rest

end CodeFacts
