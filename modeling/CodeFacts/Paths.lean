import CodeFacts.Text.Split

/-!
Paths of files: names with slashes between them. A directory is walked by telling its files first,
then its directories, both in the order of their names.
-/

namespace CodeFacts.Paths

/-- The segments of a path; several slashes count as one. -/
def segments (path : String) : List String :=
  ((Text.splitOn '/' path.toList).map String.ofList).filter (· ≠ "")

/-- Where a segment leads from some names: one dot stays, two dots go back. -/
def step (names : List String) (segment : String) : List String :=
  if segment = "." then names
  else if segment = ".." then names.dropLast
  else names ++ [segment]

def names (path : String) : List String :=
  (segments path).foldl step []

/-- The directories a path passes on its way, the one it starts from among them. -/
def passed (path : String) : List (List String) :=
  List.scanl step [] (segments path).dropLast

def join (names : List String) : String :=
  String.ofList (Text.joinWith '/' (names.map String.toList))

/-- Whether a path ends with a slash, as only that of a directory may. -/
def endsOpen (path : String) : Bool := path.toList.getLast? == some '/'

/-- A path below a root as it is written, with one slash for several. -/
def place (root path : String) : String :=
  if path = "" then root
  else
    let segments := segments path
    root ++ "/" ++ join segments ++ (if segments ≠ [] ∧ endsOpen path then "/" else "")

def below (root path : String) : String :=
  if path = "" then root
  else if endsOpen root then root ++ path
  else root ++ "/" ++ path

/-- Whether the file of some names is told before another one, or is the same. -/
def le : List String → List String → Bool
  | [], _ => true
  | _ :: _, [] => false
  | [left], [right] => decide (left ≤ right)
  | [_], _ :: _ :: _ => true
  | _ :: _ :: _, [_] => false
  | left :: next :: more, right :: other :: others =>
      if left = right then le (next :: more) (other :: others) else decide (left ≤ right)

/-- Things in the order in which a walk tells the files they are called by. -/
def walk {α : Type} (file : α → List String) (items : List α) : List α :=
  items.mergeSort fun left right => le (file left) (file right)

/-- The stem of a file name and its extension, which starts with the last dot. The dots a name
starts with do not count. -/
def splitName (name : String) : String × String :=
  match Text.cutLast '.' name.toList with
  | some (stem, extension) =>
      if stem.all (· == '.') then (name, "")
      else (String.ofList stem, String.ofList ('.' :: extension))
  | none => (name, "")

end CodeFacts.Paths
