import CodeFacts.Entries
import CodeFacts.Text.Split
import CodeFacts.Text.Blank
import CodeFacts.Text.Integer
import CodeFacts.Text.Quoted

/-!
Documentation entries: the description of a documentation comment, its tags, and where it stands.
-/

namespace CodeFacts

/-- What a documentation comment says. Each tag has its values in the order they were written. -/
structure DocEntry where
  short : String
  long : String
  tags : List (String × List String)
  row : Int
  column : Int
  deriving DecidableEq

namespace DocEntry

def tag (entry : DocEntry) (name : String) : List String :=
  (Entries.get? entry.tags name).getD []

def parameterTag : String := "@param"

/-- The name and the description in the value of a parameter tag: the value up to its first space,
and the rest. -/
def parameter (value : String) : String × String :=
  match Text.cut ' ' (Text.strip value.toList) with
  | some (name, rest) => (String.ofList name, String.ofList (Text.strip rest))
  | none => (String.ofList (Text.strip value.toList), "")

/-- The documented parameters; of two descriptions of one name the later counts. -/
def parameters (entry : DocEntry) : List (String × String) :=
  Entries.ofList (((entry.tag parameterTag).map parameter).filter (·.1 != ""))

/-- An entry in a message: its first sentence and its position. -/
def text (entry : DocEntry) : String :=
  Text.quoted entry.short ++ " at " ++ Text.decimal entry.row ++ ":" ++ Text.decimal entry.column

end DocEntry

end CodeFacts
