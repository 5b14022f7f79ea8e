import CodeFacts.Paths
import CodeFacts.Text.Blank

/-!
Relative references: resources that name no scheme of their own are taken relative to the file that
holds them. Each of two written forms has its own rule for what is relative and for the segments of
one and two dots.
-/

namespace CodeFacts.Reference

/-- What resources that name files start with. -/
def fileScheme : List Char := "file:".toList

def ofPath (path : List Char) : List Char := fileScheme ++ '/' :: '/' :: path

def folder (place : List Char) : List Char :=
  ((Text.cutLast '/' place).map fun (before, _) => before ++ ['/']).getD []

/-- The directory above another one; above the last there is only itself. -/
def above (directory : List Char) : List Char :=
  if directory.length ≤ 1 then directory else folder directory.dropLast

/-! ### In statements -/

/-- Whether a colon comes before any slash. -/
def hasColonFirst (text : List Char) : Bool :=
  (text.find? fun c => c == ':' || c == '/') == some ':'

/-- A path from a directory. Only the dots it starts with are segments of their own, and one dot
only once before others. -/
def climb (directory : List Char) : List Char → List Char
  | ['.'] => directory
  | ['.', '/', '.'] => directory
  | ['.', '.'] => above directory
  | ['.', '/', '.', '.'] => above directory
  | '.' :: '.' :: '/' :: rest => climb (above directory) rest
  | '.' :: '/' :: '.' :: '.' :: '/' :: rest => climb (above directory) rest
  | '.' :: '/' :: rest => directory ++ rest
  | path => directory ++ path

/-- The resource a reference in a file at a place stands for. -/
def besides (place reference : List Char) : List Char :=
  if hasColonFirst reference then reference
  else
    let (path, fragment) :=
      match Text.cutLast '#' reference with
      | some (path, fragment) => (path, '#' :: fragment)
      | none => (reference, [])
    match path with
    | [] => ofPath place ++ fragment
    | '/' :: '/' :: _ => fileScheme ++ reference
    | '/' :: _ => ofPath reference
    | path => ofPath (climb (folder place) path) ++ fragment

/-! ### In attributes -/

/-- Whether a character may stand in the name of a scheme. -/
def isSchemeChar (c : Char) : Bool := c.isAlphanum || c == '+' || c == '-' || c == '.'

/-- The scheme a reference names, if it names one, and what follows it. -/
def scheme? (reference : List Char) : Option (List Char × List Char) :=
  match Text.cut ':' reference with
  | some (c :: scheme, rest) =>
      if c.isAlpha && scheme.all isSchemeChar then some (c :: scheme, rest) else none
  | _ => none

/-- A reference without what is overlooked in it: control characters and spaces at its start, tabs
and line ends anywhere. -/
def cleaned (reference : List Char) : List Char :=
  (reference.dropWhile fun c => c.toNat ≤ 0x20).filter fun c => decide (c ∉ ['\t', '\r', '\n'])

/-- Segments of a path without those of one and two dots. A path that ended with one of these ends
with a slash. -/
def plainSegments (segments : List (List Char)) : List (List Char) :=
  let kept := segments.foldl
    (fun kept segment =>
      if segment = ['.', '.'] then kept.dropLast
      else if segment = ['.'] then kept
      else kept ++ [segment]) []
  if segments.getLast?.any fun last => last == ['.'] || last == ['.', '.'] then kept ++ [[]]
  else kept

/-- Segments without the empty ones inside. -/
def withoutGaps (segments : List (List Char)) : List (List Char) :=
  match segments with
  | first :: rest =>
      first :: (rest.dropLast.filter (· ≠ []) ++ rest.getLast?.toList)
  | [] => []

/-- A path in a file at a place. -/
def mergedPath (place path : List Char) : List Char :=
  let segments :=
    if path.head? = some '/' then Text.splitOn '/' path
    else withoutGaps ((Text.splitOn '/' place).dropLast ++ Text.splitOn '/' path)
  let merged := Text.joinWith '/' (plainSegments segments)
  if merged = [] then ['/'] else merged

/-- What follows the last of some marks counts only if there is something. -/
def trailing (mark : Char) (text : List Char) : List Char × List Char :=
  match Text.cut mark text with
  | some (before, []) => (before, [])
  | some (before, after) => (before, mark :: after)
  | none => (text, [])

/-- The resource that a reference without a scheme in a file at a place stands for. -/
def mergedRest (place reference : List Char) : List Char :=
  let (reference, fragment) := trailing '#' reference
  let (path, query) := trailing '?' reference
  match path with
  | '/' :: '/' :: c :: rest =>
      if c = '/' then ofPath (c :: rest) ++ query ++ fragment
      else fileScheme ++ path ++ query ++ fragment
  | [] | ['/', '/'] => ofPath place ++ query ++ fragment
  | path => ofPath (mergedPath place path) ++ query ++ fragment

/-- The resource a reference in an attribute of a file at a place stands for. A sign of a fragment
at the end is kept. -/
def merged (place reference : List Char) : List Char :=
  let text := cleaned reference
  let resolved :=
    match scheme? text with
    | some (scheme, rest) =>
        if (scheme.map Char.toLower) ++ [':'] = fileScheme then mergedRest place rest
        else reference
    | none => mergedRest place text
  if reference.getLast? = some '#' ∧ resolved.getLast? ≠ some '#' then resolved ++ ['#']
  else resolved

end CodeFacts.Reference
