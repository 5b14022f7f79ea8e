import CodeFacts.DocEntry
import CodeFacts.Text.Word
import CodeFacts.Value.Checked

/-!
Documentation comments. Their lines up to the first one with a tag describe what is documented;
each tag has the rest of its line and the lines up to the next tag.
-/

namespace CodeFacts.DocComment

def opening : List Char := "/**".toList

def closing : List Char := "*/".toList

/-- What a documentation comment holds between its delimiters. -/
def body? (text : List Char) : Option (List Char) :=
  if opening.isPrefixOf text && !"/**/".toList.isPrefixOf text && closing.isSuffixOf text then
    some ((text.drop opening.length).take (text.length - opening.length - closing.length))
  else none

def isDocComment (text : String) : Bool := (body? text.toList).isSome

/-- A line without the star it may start with and the blanks around what is left. -/
def content (line : List Char) : List Char :=
  match Text.dropBlanks line with
  | '*' :: rest => Text.strip rest
  | rest => Text.strip rest

/-- The tag a line starts with and the rest of the line. -/
def tag? : List Char → Option (String × List Char)
  | '@' :: rest =>
      let name := rest.takeWhile Text.isWordChar
      if name = [] then none
      else some (String.ofList ('@' :: name), Text.dropBlanks (rest.dropWhile Text.isWordChar))
  | _ => none

/-- A text with a line after it. Blank lines add nothing. -/
def continued (text line : List Char) : List Char :=
  if line = [] then text else Text.strip (text ++ ' ' :: line)

/-- The lines before the first tag, and each tag with its text. -/
def blocks : List (List Char) → List (List Char) × List (String × List (List Char))
  | [] => ([], [])
  | line :: rest =>
      let (lines, tags) := blocks rest
      match tag? line with
      | some (name, value) => ([], (name, value :: lines) :: tags)
      | none => (line :: lines, tags)

/-- The text of a tag: the rest of its line and the lines after it. -/
def tagText : List (List Char) → String
  | [] => ""
  | value :: lines => String.ofList (lines.foldl continued value)

/-- A description up to the first full stop that a blank or its end follows, and the rest. -/
def sentence : List Char → List Char × List Char
  | [] => ([], [])
  | '.' :: [] => (['.'], [])
  | '.' :: c :: rest =>
      if Text.isBlank c then (['.'], rest)
      else
        let (first, later) := sentence (c :: rest)
        ('.' :: first, later)
  | c :: rest =>
      let (first, later) := sentence rest
      (c :: first, later)

/-- The entry of a documentation comment at a position, if the text is one. -/
def read? (text : String) (row column : Int) : Option DocEntry := do
  let body ← body? text.toList
  let (lines, tags) := blocks ((Text.lines body).map content)
  let (short, long) := sentence (Text.joinWith ' ' (lines.filter (· ≠ [])))
  return {
    short := String.ofList short
    long := String.ofList (Text.strip long)
    tags := Entries.grouped (tags.map fun (name, lines) => (name, tagText lines))
    row
    column }

/-- The entry of a documentation comment at an unchecked position, if the text is one. -/
def readAt (text : String) (row column : Value) : Except Fault (Option DocEntry) :=
  match read? text 0 0 with
  | none => .ok none
  | some entry =>
      Checked.result <|
        (fun row column => some { entry with row, column }) <$> Checked.integer ["row"] row
          <*> Checked.integer ["column"] column

end CodeFacts.DocComment
