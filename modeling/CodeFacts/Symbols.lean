import CodeFacts.Archive
import CodeFacts.Identifier
import CodeFacts.Index
import CodeFacts.Paths
import CodeFacts.Store.Basic
import CodeFacts.Text.Blank

/-!
The names of types known before a run, each with the origins it was found in, and the same names
by package. Names come from trees of files, from archives and from a model.
-/

namespace CodeFacts

inductive Origin where
  | source
  | compiled
  | archive
  | model
  deriving DecidableEq, Repr

def Origin.ofWord? : String → Option Origin
  | "source" => some .source
  | "compiled" => some .compiled
  | "archive" => some .archive
  | "model" => some .model
  | _ => none

/-- The origin of an unchecked value, which must be the word of one. -/
def Origin.ofValue : Value → Except Fault Origin
  | .text word =>
      match Origin.ofWord? word with
      | some origin => .ok origin
      | none => .error (.value (.noOrigin (Value.shown (.text word))))
  | value => .error (.value (.noOrigin value.shown))

/-- Something that holds names, at a path: a directory, an archive of known entries, a file that may
be an archive, or nothing. -/
inductive SymbolSource where
  | tree (path : String) (files : List String)
  | archive (path : String) (entries : List String)
  | file (path : String) (bytes : List UInt8)
  | absent (path : String)

def SymbolSource.path : SymbolSource → String
  | .tree path _ => path
  | .archive path _ => path
  | .file path _ => path
  | .absent path => path

/-- Known names with their origins, and their simple names by package. -/
structure SymbolTable where
  origins : Index Origin
  members : Index String

namespace SymbolTable

def empty : SymbolTable := ⟨.empty, .empty⟩

def register (table : SymbolTable) (name : String) (origin : Origin) : SymbolTable :=
  ⟨table.origins.fileNew name origin,
    table.members.fileNew (Dotted.outer name) (Dotted.simple name)⟩

/-- The table with a name, which must not be blank. -/
def add (table : SymbolTable) (name : String) (origin : Origin) : Except Fault SymbolTable :=
  if Text.isBlankText name then .error (.value .blankSymbol)
  else .ok (table.register name origin)

def knows (table : SymbolTable) (name : String) : Bool :=
  table.origins.find name != []

def knowsFrom (table : SymbolTable) (name : String) (origin : Origin) : Bool :=
  decide (origin ∈ table.origins.find name)

def packageHas (table : SymbolTable) (package name : String) : Bool :=
  decide (name ∈ table.members.find package)

/-- Whether a package has a simple name, where both are unchecked; what is no text is neither. -/
def packageHasValues (table : SymbolTable) : (package name : Value) → Bool
  | .text package, .text name => table.packageHas package name
  | _, _ => false

def names (table : SymbolTable) : List String := table.origins.keys

def namesFrom (table : SymbolTable) (origin : Origin) : List String :=
  table.names.filter (table.knowsFrom · origin)

def packages (table : SymbolTable) : List String := table.members.keys

def size (table : SymbolTable) : Nat := table.origins.size

/-- The table with every name of another, from the origins it has there. -/
def merge (table other : SymbolTable) : SymbolTable :=
  other.names.foldl
    (fun table name => (other.origins.find name).foldl (register · name ·) table) table

/-- The table with names of one origin up to the first that is refused, and how many names there
are when none is. -/
def addAll (table : SymbolTable) (origin : Origin) : List (Except Fault String) →
    SymbolTable × Except Fault Nat
  | [] => (table, .ok 0)
  | name :: rest =>
      match name.bind (table.add · origin) with
      | .error fault => (table, .error fault)
      | .ok next =>
          let (last, count) := next.addAll origin rest
          (last, count.map (· + 1))

def sourceExtension : String := ".java"

def compiledExtension : String := ".class"

def hasExtension (path extension : String) : Bool :=
  extension.toList.isSuffixOf path.toList

/-- The dotted name a path stands for: as many characters dropped from its end as the extension
has, which must be some, and dots in place of what separates directories and nested types. -/
def pathName (path extension : String) : String :=
  let kept :=
    if extension = "" then []
    else path.toList.take (path.length - extension.length)
  String.ofList (kept.map fun c => if c = '/' ∨ c = '$' then '.' else c)

/-- The table with the names of the paths that have an extension. -/
def addPaths (table : SymbolTable) (extension : String) (origin : Origin) (paths : List String) :
    SymbolTable × Except Fault Nat :=
  table.addAll origin
    ((paths.filter (hasExtension · extension)).map fun path => .ok (pathName path extension))

/-- The files of a tree at a path, each once, in the order they are walked. A file that leads out of
the tree is not in it. -/
def walked (path : String) (files : List String) : List String :=
  let root := Paths.names path
  let inside := (files.map fun file => (Paths.segments file).foldl Paths.step root).filter
    root.isPrefixOf
  (Paths.walk id (inside.map (·.drop root.length)).eraseDups).map Paths.join

def preloadSource (table : SymbolTable) : SymbolSource → SymbolTable × Except Fault Nat
  | .tree path files => table.addPaths sourceExtension .source (walked path files)
  | source => (table, .error (.noFile .directory source.path))

def preloadCompiled (table : SymbolTable) : SymbolSource → SymbolTable × Except Fault Nat
  | .tree path files => table.addPaths compiledExtension .compiled (walked path files)
  | source => (table, .error (.noFile .directory source.path))

/-- The name of an entry of an archive, which ends before its first null character. -/
def entryName (entry : String) : String :=
  String.ofList (entry.toList.takeWhile (· != '\x00'))

/-- The table with the compiled files among the entries of an archive. -/
def addEntries (table : SymbolTable) (entries : List String) : SymbolTable × Except Fault Nat :=
  table.addPaths compiledExtension .archive (entries.map entryName)

def preloadArchive (table : SymbolTable) : SymbolSource → SymbolTable × Except Fault Nat
  | .archive _ entries => table.addEntries entries
  | .file _ bytes =>
      match Archive.entries bytes with
      | .ok entries => table.addEntries entries
      | .error cause => (table, .error (.archive cause))
  | source => (table, .error (.noFile .archive source.path))

/-- The table with what a source holds, a tree being read as source and as compiled files and an
archive being known by the end of its path. -/
def preload (table : SymbolTable) (source : SymbolSource) : SymbolTable × Except Fault Nat :=
  match source with
  | .tree .. =>
      match table.preloadSource source with
      | (next, .ok sources) =>
          let (last, compiled) := next.preloadCompiled source
          (last, compiled.map (sources + ·))
      | refused => refused
  | _ =>
      if hasExtension source.path ".jar" || hasExtension source.path ".zip" then
        table.preloadArchive source
      else (table, .error (.value (.noSymbolSource source.path)))

def preloadModel {σ : Type} [TripleStore σ] (table : SymbolTable) (store : σ) :
    SymbolTable × Except Fault Nat :=
  let declared := EntityKind.types.flatMap fun kind =>
    TripleStore.search store ⟨none, some Predicate.subClassOf.uri, some kind.uri⟩
  table.addAll .model
    (declared.map fun triple => (Identifier.read triple.subject).map Identifier.dottedName)

end SymbolTable

end CodeFacts
