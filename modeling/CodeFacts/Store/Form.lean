import CodeFacts.Store.Element
import CodeFacts.Store.Graph
import CodeFacts.Store.Line
import CodeFacts.Store.Turtle.Reader
import CodeFacts.Store.Turtle.Writer

/-!
The written forms of a graph. What a form holds is read back; each form refuses the resources it has
no way to write.
-/

namespace CodeFacts

/-- The written forms of a graph: one triple a line, one statement for each subject, or one element
for each. -/
inductive GraphForm where
  | lines
  | turtle
  | xml
  deriving DecidableEq, Repr

namespace GraphForm

/-- Triples read back from the lines they were written in, one by one. -/
def exchangeLines (triples : List Triple) : Except Fault (List Triple) := do
  let resources (triple : Triple) : List String :=
    [triple.subject, triple.predicate] ++ (if triple.literal then [] else [triple.object])
  match (triples.flatMap resources).find? fun text => !isWritable text with
  | some text => .error (.unwritable text)
  | none => triples.mapM fun triple => Line.read (Line.first (Line.write triple))

/-- The triples of a graph read back from a form they were written in, in a file at a place. -/
def exchange (form : GraphForm) (place : String) (triples : List Triple) :
    Except Fault (List Triple) := do
  let found ←
    match form with
    | .lines => exchangeLines (Triple.sorted triples)
    | .turtle => Turtle.write (Triple.sorted triples) >>= Turtle.read place
    | .xml => Element.exchange place triples
  return TripleStore.listing (GraphStore.ofList found : GraphStore EdgeList)

end GraphForm

end CodeFacts
