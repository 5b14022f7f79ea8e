import CodeFacts.Source.Telling
import CodeFacts.Paths

/-!
Libraries: a file or all source files of a directory, told as one run. A file that cannot be read is
told as a parse error.
-/

namespace CodeFacts.Source

/-- What a file holds: its bytes, and the tree of its text. -/
structure Content where
  bytes : List UInt8
  root : Node

/-- A file below the root: its names from there on, and what it holds if it can be read. -/
structure File where
  names : List String
  content : Option Content

/-- The files below a root and the directories there. -/
structure Tree where
  root : String
  files : List File
  folders : List (List String)

namespace Tree

/-- The tree that files at paths make; of two files at one place the later is there. -/
def ofFiles (root : String) (files : List (String × Option Content)) : Tree where
  root := root
  files :=
    ((files.map fun (path, content) => ⟨Paths.names path, content⟩).reverse.eraseDupsBy
      fun (left : File) (right : File) => left.names == right.names).reverse
  folders := [] :: files.flatMap fun file => Paths.passed file.1

/-- Whether some names are those of a directory. -/
def isDirectory (tree : Tree) (names : List String) : Bool := tree.folders.contains names

/-- The names a path leads to; each of its segments must be taken from a directory. -/
def resolve? (tree : Tree) (path : String) : Option (List String) :=
  (Paths.segments path).foldlM
    (fun names segment =>
      if tree.isDirectory names then some (Paths.step names segment) else none) []

def directory? (tree : Tree) (path : String) : Option (List String) :=
  (tree.resolve? path).filter tree.isDirectory

def file? (tree : Tree) (path : String) : Option Content :=
  if Paths.endsOpen path then none
  else
    (tree.resolve? path).bind fun names =>
      (tree.files.find? (·.names == names)).bind (·.content)

/-- The files below a directory, in the order they are walked, with their names from there on. -/
def below (tree : Tree) (names : List String) : List File :=
  let inside := tree.files.filter fun file => names.isPrefixOf file.names && file.names != names
  Paths.walk File.names
    (inside.map fun file => { file with names := file.names.drop names.length })

/-- The place of a path, without the segments that add nothing. -/
def location (tree : Tree) (path : String) : String :=
  Paths.below tree.root (Paths.join (Paths.names path))

/-- What a path holds for a table of known names. -/
def symbolSource (tree : Tree) (path : String) : SymbolSource :=
  let place := Paths.place tree.root path
  match tree.directory? path with
  | some names => .tree place ((tree.below names).map fun file => Paths.join file.names)
  | none => (tree.file? path).elim (.absent place) fun content => .file place content.bytes

end Tree

/-- The extension of source files, in any case. -/
def isSource (name : String) : Bool :=
  (Paths.splitName name).2.map Char.toLower == SymbolTable.sourceExtension

/-- A file of a library, at the path it is told under. -/
def fileTrace (symbols : SymbolTable) (path : String) (content : Option Content) : Trace :=
  match content with
  | none =>
      Trace.ofCalls
        [.parseError (.text path)
          (.text ("Cannot read file: [Errno 2] No such file or directory: " ++ Text.quoted path))]
  | some content =>
      Trace.ofCalls [.startUnit (.text path)] ++ unitTrace symbols path content.root ++
        Trace.ofCalls [.endUnit]

/-- A library of a name and a place. -/
def libraryTrace (name : Value) (location : String) (files : List Trace) : Trace :=
  Trace.ofCalls [.startParsing name (.text location)] ++ Trace.join files ++
    Trace.ofCalls [.endParsing]

/-- A name that is given, or the name there is without one. -/
def given (name : Value) (otherwise : String) : Value :=
  match name with
  | .null => .text otherwise
  | name => name

/-- One file as a library, named for the file unless a name is given. -/
def parseFile (symbols : SymbolTable) (tree : Tree) (path : String) (name : Value) : Trace :=
  let place := Paths.place tree.root path
  match tree.file? path with
  | none => .stop (.noFile .file place)
  | some content =>
      let stem := (Paths.splitName ((Paths.segments path).getLast?.getD "")).1
      libraryTrace (given name stem) (tree.location path) [fileTrace symbols place (some content)]

def files (tree : Tree) (names : List String) : List File :=
  (tree.below names).filter fun file => isSource (file.names.getLast?.getD "")

/-- The source files of a directory as a library, named for the directory unless a name is given. -/
def parseDirectory (symbols : SymbolTable) (tree : Tree) (path : String)
    (name : Value) : Trace :=
  let place := Paths.place tree.root path
  match tree.directory? path with
  | none => .stop (.noFile .directory place)
  | some names =>
      let last := (Paths.segments (tree.location path)).getLast?.getD ""
      libraryTrace (given name last) (tree.location path) <|
        (files tree names).map fun file =>
          fileTrace symbols (Paths.below place (Paths.join file.names)) file.content

end CodeFacts.Source
