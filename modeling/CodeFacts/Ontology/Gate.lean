import CodeFacts.Ontology.Basic
import CodeFacts.Store.Basic

/-!
Additions to a store that an ontology has to accept first. A refused addition does not reach the
store; removals and searches need no gate.
-/

namespace CodeFacts.Ontology

variable {σ : Type} [TripleStore σ]

/-- What is told of a triple that no rule accepts: the triple itself is named. -/
def asViolation (subject predicate object : Value) : Fault → Fault
  | .validation cause => .violation subject.plain predicate.plain object.plain cause
  | fault => fault

/-- The store with the triple of a resource. A list in place of a resource is checked as the
collection it looks like, and then refused by the store. -/
def addResource (ontology : Ontology) (store : σ) (subject predicate object : Value) :
    Except Fault σ := do
  let _ ← (ontology.judgeObject subject predicate object).mapError
    (asViolation subject predicate object)
  Store.addResource store subject predicate object

def addLiteral (ontology : Ontology) (store : σ) (subject predicate literal : Value) :
    Except Fault σ := do
  let _ ← (ontology.judgeLiteral subject predicate).mapError
    (asViolation subject predicate literal)
  Store.addLiteral store subject predicate literal

/-- The store with a collection of literals. A bare text is checked as the list of its characters,
and then refused by the store. -/
def addCollection (ontology : Ontology) (store : σ) (subject predicate values : Value) :
    Except Fault σ :=
  match values.items? with
  | none => .error (.unsupported .operation)
  | some items => do
      let _ ← (ontology.judgeObject subject predicate (.list items)).mapError
        (asViolation subject predicate (.list items))
      Store.addCollection store subject predicate values

end CodeFacts.Ontology
