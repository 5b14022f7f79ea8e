/-!
Triples, the statements a model is made of, and the patterns they are searched with.
-/

namespace CodeFacts

/-- A statement. Its object is a resource or a literal value. -/
structure Triple where
  subject : String
  predicate : String
  object : String
  literal : Bool
  deriving DecidableEq, Repr

structure Pattern where
  subject? : Option String
  predicate? : Option String
  object? : Option String

/-- Whether a term is the one asked for, if one is. -/
def agrees (asked : Option String) (term : String) : Bool :=
  match asked with
  | none => true
  | some wanted => wanted == term

/-- Whether a triple has every term its pattern gives. An object may be of either sort. -/
def Pattern.holds (pattern : Pattern) (triple : Triple) : Bool :=
  agrees pattern.subject? triple.subject && agrees pattern.predicate? triple.predicate &&
    agrees pattern.object? triple.object

def Pattern.any : Pattern := ⟨none, none, none⟩

/-- Whether a triple comes before another or is equal to it, term by term. -/
def Triple.le (left right : Triple) : Bool :=
  if left.subject ≠ right.subject then left.subject < right.subject
  else if left.predicate ≠ right.predicate then left.predicate < right.predicate
  else if left.object ≠ right.object then left.object < right.object
  else !left.literal || right.literal

def Triple.sorted (triples : List Triple) : List Triple :=
  triples.mergeSort Triple.le

end CodeFacts
