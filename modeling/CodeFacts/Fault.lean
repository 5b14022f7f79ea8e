import CodeFacts.Text.Integer
import CodeFacts.Value.Basic
import CodeFacts.Vocabulary

/-!
Why an operation is refused. Each cause is a constructor with the data that decide it; the wording
of all of them is in `Fault.message`.
-/

namespace CodeFacts

/-- A rule of this library about the parts of an identifier or the bounds of a collection. -/
inductive BrokenRule where
  | reservedInFragment (text : String) (mark : Char)
  | emptyQualifier
  | reservedInQualifier (text : String) (mark : Char)
  | emptySpace
  | malformedSpace (text : String)
  | negativeBound (bound : Int)
  | crossedBounds (least most : Int)
  deriving DecidableEq

/-- What is wrong with a field of an untrusted record. -/
inductive FieldProblem where
  | missing
  | notText
  | notInteger
  | unreadableInteger
  | fractional
  | tooLarge
  | notFinite
  | notList
  | notRecord
  | notModel
  | notChoice
  | unknownTag
  | missingTag
  | notJson
  | broken (rule : BrokenRule)
  deriving DecidableEq

/-- A problem and the path of the field it is at. -/
structure Problem where
  path : List String
  problem : FieldProblem
  deriving DecidableEq

inductive EmptyUse where
  | head
  | lastFragment
  | lastQualifier
  | pop
  deriving DecidableEq

/-- Why a text or a value stands for nothing. -/
inductive ValueFault where
  | broken (rule : BrokenRule)
  | unqualified (text : String)
  | noType (text : String)
  | typeQualifier (text qualifier : String)
  | integer (text : String) (cause : Text.IntegerFault)
  | noVisibility (shown : String)
  | noModifier (shown : String)
  | noOrigin (shown : String)
  | blankSymbol
  | noSymbolSource (path : String)
  | noBackend (name : String)
  | parameterCount (names types : Nat)
  | unwritableElement (text : String)
  | unsplitElement (text : String)
  | unnamedElement (text : String)
  deriving DecidableEq

inductive IndexFault where
  | sections (start stop : String) (size : Nat)
  | outside
  | beyondWord
  | item
  | emptyStack
  deriving DecidableEq

/-- The place of a term in a triple. -/
inductive TermRole where
  | subject
  | predicate
  | object
  | literal
  | collection
  deriving DecidableEq

/-- Why a rule cannot be added to an ontology. -/
inductive DefinitionFault where
  | incomplete (subject predicate : String)
  | emptyObject (predicate : String)
  | repeated (relation : String)
  deriving DecidableEq

/-- Why no rule of an ontology accepts a triple. -/
inductive ValidationFault where
  | unknownPredicate (predicate : String)
  | subject (found predicate : String)
  | object (found predicate : String)
  | size (size : Nat) (predicate : String)
  | literal (predicate : String)
  deriving DecidableEq

/-- Why the start and the end of a scope do not match. -/
inductive ScopeFault where
  | noScope (kind : EntityKind)
  | otherScope (kind actual : EntityKind) (name : String)
  | outsideUnit (kind : EntityKind) (unit : String)
  | unitOpen (unit : String)
  | scopesOpen (scopes : List (EntityKind × String))
  | unitStillOpen (next unit : String)
  | noUnit
  | unitScopesOpen (unit : String)
  deriving DecidableEq

inductive RefusalFault where
  | notStarted (what : String)
  | outside (what : String) (kinds : List EntityKind)
  | alreadyStarted (library : String)
  | emptyLibrary
  | malformedLibrary (library : String)
  | emptyLocation
  | knownLibrary (library : String)
  | emptyName
  | emptyPackage
  | packageInside (name : String) (kind : EntityKind) (scope : String)
  | packageNotNested (name scope : String)
  deriving DecidableEq

inductive LookupFault where
  | type (name : String)
  | executable (identifier : String)
  | entity (kind : EntityKind) (identifier : String)
  deriving DecidableEq

inductive FileKind where
  | file
  | directory
  | archive
  | graph
  deriving DecidableEq

inductive ArchiveFault where
  | noArchive
  | misplaced
  | truncated
  | noEntry
  deriving DecidableEq

/-- Why a document of statements cannot be read. -/
inductive StatementFault where
  | noStatement
  | noEnd
  | noVerb
  | noObject
  | noStep
  | backwardArrow
  | afterObject
  | lineInText
  | unendedText
  | hexEscape
  | undeclared (key : String)
  deriving DecidableEq

/-- What a value of an unexpected kind lacks: a part that is asked of it, or the operation. -/
inductive Lack where
  | part
  | operation
  deriving DecidableEq

inductive Fault where
  | fields (problems : List Problem)
  | emptyIdentifier (use : EmptyUse)
  | value (cause : ValueFault)
  | index (cause : IndexFault)
  | malformed (role : TermRole) (term : Value)
  | definition (cause : DefinitionFault)
  | validation (cause : ValidationFault)
  | violation (subject predicate object : String) (cause : ValidationFault)
  | scope (cause : ScopeFault)
  | refused (cause : RefusalFault)
  | lookup (cause : LookupFault)
  | noFile (kind : FileKind) (path : String)
  | archive (cause : ArchiveFault)
  | unwritable (text : String)
  | unreadable (left : String)
  | statement (cause : StatementFault) (line : Nat) (document : String) (place : Option Nat)
  | unsupported (lack : Lack)

def BrokenRule.message : BrokenRule → String
  | .reservedInFragment text mark => s!"Invalid fragment '{text}': cannot contain '{mark}'"
  | .emptyQualifier => "Qualifier cannot be empty"
  | .reservedInQualifier text mark => s!"Invalid qualifier '{text}': cannot contain '{mark}'"
  | .emptySpace => "Identifier prefix cannot be empty"
  | .malformedSpace text =>
      s!"Invalid identifier prefix '{text}': it must end with '#' and contain no other '#'"
  | .negativeBound bound => s!"Invalid lower bound {bound}"
  | .crossedBounds least most => s!"Invalid bounds [{least}, {most}]"

def FieldProblem.message : FieldProblem → String
  | .missing => "missing"
  | .notText => "string_type"
  | .notInteger => "int_type"
  | .unreadableInteger => "int_parsing"
  | .fractional => "int_from_float"
  | .tooLarge => "int_parsing_size"
  | .notFinite => "finite_number"
  | .notList => "list_type"
  | .notRecord => "dict_type"
  | .notModel => "model_type"
  | .notChoice => "enum"
  | .unknownTag => "union_tag_invalid"
  | .missingTag => "union_tag_not_found"
  | .notJson => "json_invalid"
  | .broken rule => rule.message

def Problem.message (problem : Problem) : String :=
  ".".intercalate problem.path ++ ": " ++ problem.problem.message

def EmptyUse.message : EmptyUse → String
  | .head => "Cannot take the head of an empty identifier"
  | .lastFragment => "Empty identifier has no tail fragment"
  | .lastQualifier => "Invalid identifier size to perform this operation"
  | .pop => "Cannot pop a fragment from an empty builder"

def ValueFault.message : ValueFault → String
  | .broken rule => rule.message
  | .unqualified text => s!"Invalid identifier '{text}': first fragment has no qualifier"
  | .noType text => s!"Cannot convert '{text}' to a type"
  | .typeQualifier text qualifier =>
      s!"Cannot convert '{text}' to a type: unexpected qualifier '{qualifier}'"
  | .integer text .malformed =>
      "invalid literal for int() with base 10: " ++ Text.shortened 200 (Text.quoted text)
  | .integer _ (.tooLong digits) =>
      s!"Exceeds the limit ({Text.digitLimit} digits) for integer string conversion: " ++
        s!"value has {digits} digits; use sys.set_int_max_str_digits() to increase the limit"
  | .noVisibility shown => shown ++ " is not a valid Visibility"
  | .noModifier shown => shown ++ " is not a valid Modifier"
  | .noOrigin shown => shown ++ " is not a valid SymbolOrigin"
  | .blankSymbol => "Symbol name cannot be empty"
  | .noSymbolSource path => s!"Cannot preload symbols from {path}"
  | .noBackend name =>
      s!"Unsupported storage type: {name}. Supported types: ['memory', 'rdflib', 'kuzudb']"
  | .parameterCount names types =>
      s!"Parameter names and types differ in length: {names} != {types}"
  | .unwritableElement text =>
      s!"\"{text}\" does not look like a valid URI, cannot serialize this. " ++
        "Did you want to urlencode it?"
  | .unsplitElement text => s!"Can't split '{text}'"
  | .unnamedElement text =>
      "This graph cannot be serialized to a strict format because " ++
        s!"there is no valid way to shorten {text}"

def IndexFault.message : IndexFault → String
  | .sections start stop size =>
      s!"Invalid sections [{start}, {stop}) for identifier of size {size}"
  | .outside => "tuple index out of range"
  | .beyondWord => "cannot fit 'int' into an index-sized integer"
  | .item => "list index out of range"
  | .emptyStack => "pop from empty list"

def TermRole.word : TermRole → String
  | .subject => "subject"
  | .predicate => "predicate"
  | .object => "object"
  | .literal => "literal"
  | .collection => "collection"

def DefinitionFault.message : DefinitionFault → String
  | .incomplete subject predicate =>
      s!"Invalid relation: subject prefix '{subject}', predicate '{predicate}'"
  | .emptyObject predicate => s!"Invalid object prefix for predicate '{predicate}'"
  | .repeated relation => s!"Relation already defined: {relation}"

def ValidationFault.message : ValidationFault → String
  | .unknownPredicate predicate => s!"Unknown predicate: '{predicate}'"
  | .subject found predicate => s!"Invalid subject prefix: '{found}' for predicate: '{predicate}'"
  | .object found predicate => s!"Invalid object prefix: '{found}' for predicate: '{predicate}'"
  | .size count predicate => s!"Invalid collection of size {count} for predicate: '{predicate}'"
  | .literal predicate => s!"Predicate '{predicate}' does not accept literals"

/-- Why the start and the end of a scope do not match. -/
def ScopeFault.message : ScopeFault → String
  | .noScope kind => s!"Cannot close {kind.key}: no open scope"
  | .otherScope kind actual name =>
      s!"Cannot close {kind.key}: the open scope is {actual.key} {name}"
  | .outsideUnit kind unit => s!"Cannot close {kind.key} opened outside of {unit}"
  | .unitOpen unit => s!"Compilation unit {unit} is still open"
  | .scopesOpen scopes =>
      "Cannot end parsing with open scopes: " ++
        ", ".intercalate (scopes.map fun (kind, name) => s!"{kind.key} {name}")
  | .unitStillOpen next unit => s!"Cannot open {next}: compilation unit {unit} is still open"
  | .noUnit => "No compilation unit to close"
  | .unitScopesOpen unit => s!"Compilation unit {unit} ends with open scopes"

def RefusalFault.message : RefusalFault → String
  | .notStarted what => s!"Cannot handle {what}: parsing not started"
  | .outside what kinds =>
      s!"Cannot handle {what} outside of a " ++ " or ".intercalate (kinds.map (·.key)) ++ " scope"
  | .alreadyStarted library => s!"Parsing already started for library {library}"
  | .emptyLibrary => "Library name cannot be empty"
  | .malformedLibrary library => s!"Invalid library name '{library}'"
  | .emptyLocation => "Library location cannot be empty"
  | .knownLibrary library => s!"A library with name '{library}' already exists in the model"
  | .emptyName => "Name cannot be empty"
  | .emptyPackage => "Package name cannot be empty"
  | .packageInside name kind scope => s!"Cannot open package {name} inside {kind.key} {scope}"
  | .packageNotNested name scope => s!"Package {name} is not nested in package {scope}"

/-- The word for a kind of entity in a failed lookup. -/
def LookupFault.kindWord : EntityKind → String
  | .package => "Package"
  | .attribute => "Attribute"
  | .method => "Method"
  | .constructor => "Constructor"
  | .signature => "Signature"
  | .parameter => "Parameter"
  | .classType | .interface | .enumeration => "Type"

def LookupFault.message : LookupFault → String
  | .type name => s!"Type not found: {name}"
  | .executable identifier => s!"Method or constructor not found: {identifier}"
  | .entity kind identifier => LookupFault.kindWord kind ++ s!" not found: {identifier}"

def FileKind.word : FileKind → String
  | .file => "File"
  | .directory => "Directory"
  | .archive => "Archive"
  | .graph => "RDF file"

def ArchiveFault.message : ArchiveFault → String
  | .noArchive => "File is not a zip file"
  | .misplaced => "Bad offset for central directory"
  | .truncated => "Truncated central directory"
  | .noEntry => "Bad magic number for central directory"

def StatementFault.message : StatementFault → String
  | .noStatement => "expected directive or statement"
  | .noEnd => "expected '.' or '\x7d' or ']' at end of statement"
  | .noVerb => "EOF found when expected verb in property list"
  | .noObject => "objectList expected"
  | .noStep => "EOF found in middle of path syntax"
  | .backwardArrow => "Found '<=' in Turtle mode. "
  | .afterObject => "EOF found after object"
  | .lineInText => "newline found in string literal"
  | .unendedText => "unterminated string literal"
  | .hexEscape => "illegal hex escape %"
  | .undeclared key => s!"Prefix \"{key}:\" not bound"

/-- The bytes before and after a place, as many of each as are shown. What is at no place is shown
before the last byte. -/
def excerpt (document : List UInt8) (place : Option Nat) : String :=
  let size := document.length
  match place with
  | some place =>
      (if 60 < place then "..." else "") ++
        Text.quotedBytes ((document.take place).drop (place - 60)) ++ "^" ++
        Text.quotedBytes ((document.drop place).take 60) ++
        (if place + 60 < size then "..." else "")
  | none =>
      Text.quotedBytes (document.take (size - 1)) ++ "^" ++
        Text.quotedBytes ((document.take 59).drop (size - 1)) ++ (if 59 < size then "..." else "")

namespace Fault

/-- The wording of a fault. An operation on a value of a kind it has no meaning for has none. -/
def message : Fault → String
  | .fields problems => "; ".intercalate (problems.map (·.message))
  | .emptyIdentifier use => use.message
  | .value cause => cause.message
  | .index cause => cause.message
  | .malformed role term => "Invalid " ++ role.word ++ ": " ++ term.shown
  | .definition cause => cause.message
  | .validation cause => cause.message
  | .violation subject predicate object cause =>
      s!"An error occurred while validating triple \x7b {subject} {predicate} {object} \x7d: " ++
        cause.message
  | .scope cause => cause.message
  | .refused cause => cause.message
  | .lookup cause => cause.message
  | .noFile kind path => kind.word ++ s!" not found: {path}"
  | .archive cause => cause.message
  | .unwritable text =>
      s!"\"{text}\" does not look like a valid URI, I cannot serialize this as N3/Turtle. " ++
        "Perhaps you wanted to urlencode it?"
  | .unreadable left => s!"Invalid line: {left}"
  | .statement cause line document place =>
      s!"at line {line + 1} of <>:\nBad syntax ({cause.message}) at ^ in:\n\"" ++
        excerpt document.toUTF8.toList place ++ "\""
  | .unsupported _ => ""

def field (path : List String) (problem : FieldProblem) : Fault :=
  .fields [⟨path, problem⟩]

end Fault

def readWhole (text : String) : Except Fault Int :=
  match Text.readInteger text with
  | .ok value => .ok value
  | .error cause => .error (.value (.integer text cause))

end CodeFacts
