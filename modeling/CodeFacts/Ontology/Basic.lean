import CodeFacts.Identifier
import CodeFacts.Index
import CodeFacts.Ontology.Bounds

/-!
Ontologies: ordered rules saying which subjects may carry a predicate and towards what. A term
fits a pattern when both end with the same qualifier. The first rule that accepts a triple counts.
-/

namespace CodeFacts

/-- What the triples of a rule lead to. -/
inductive Target where
  | literal
  | resource (pattern : String)
  | collection (bounds : Bounds)
  deriving DecidableEq

/-- A rule: subjects that fit a pattern may carry a predicate towards a target. -/
structure Relation where
  subject : String
  predicate : String
  target : Target
  deriving DecidableEq

namespace Relation

def acceptsSubject (relation : Relation) (subject : String) : Bool :=
  qualifierPattern relation.subject == qualifierPattern subject

def acceptsResource (relation : Relation) (object : String) : Bool :=
  match relation.target with
  | .resource pattern => qualifierPattern pattern == qualifierPattern object
  | _ => false

def acceptsCollection (relation : Relation) (size : Nat) : Bool :=
  match relation.target with
  | .collection bounds => bounds.holds size
  | _ => false

/-- Whether an unchecked subject, which must be a text, fits the pattern of a rule. -/
def acceptsSubjectValue (relation : Relation) : (subject : Value) → Except Fault Bool
  | .text subject => .ok (relation.acceptsSubject subject)
  | _ => .error (.unsupported .part)

/-- Whether a rule leads to an unchecked object; a list is the collection it looks like. Only a
pattern has to look into what is neither. -/
def acceptsObjectValue (relation : Relation) : (object : Value) → Except Fault Bool
  | .list items => .ok (relation.acceptsCollection items.length)
  | .text object => .ok (relation.acceptsResource object)
  | _ =>
      match relation.target with
      | .resource _ => .error (.unsupported .part)
      | _ => .ok false

def acceptsLiteral (relation : Relation) : Bool :=
  match relation.target with
  | .literal => true
  | _ => false

def text (relation : Relation) : String :=
  let target :=
    match relation.target with
    | .literal => "'LITERAL'"
    | .collection bounds => "'LITERAL'" ++ bounds.text
    | .resource pattern => "[" ++ pattern ++ "]"
  "[" ++ relation.subject ++ "] --[" ++ relation.predicate ++ "]--> " ++ target

/-- Whether a rule comes before another by predicate and subject, or is level with it. -/
def le (left right : Relation) : Bool :=
  if left.predicate ≠ right.predicate then left.predicate < right.predicate
  else !decide (right.subject < left.subject)

def toValue (relation : Relation) : Value :=
  let object :=
    match relation.target with
    | .literal => .null
    | .resource pattern => .text pattern
    | .collection bounds => .record bounds.fields
  let isCollection :=
    match relation.target with
    | .collection _ => true
    | _ => false
  .record [("subject_prefix", .text relation.subject), ("predicate", .text relation.predicate),
    ("object", object), ("literal", .bool relation.acceptsLiteral),
    ("collection", .bool isCollection), ("text", .text relation.text)]

end Relation

/-- Rules in the order they were added, and the same rules by predicate. -/
structure Ontology where
  relations : List Relation
  byPredicate : Index Relation

/-- The target of an unchecked object: nothing stands for literals, a text for what fits it. -/
def Target.ofValue : (object : Value) → Checked Target
  | .null => .good .literal
  | .text pattern => .good (.resource pattern)
  | _ =>
      .bad [⟨["object_constraint", "str"], .notText⟩,
        ⟨["object_constraint", "function-after[_check_range(), ListBounds]"], .notModel⟩]

/-- The rule of unchecked parts. A record stands for bounds, which are read first; what stands for
nothing makes no rule. -/
def Relation.read (subject predicate object : Value) : Except Fault Relation := do
  let target ←
    match object with
    | .record fields => (fun bounds => .good (.collection bounds)) <$> Bounds.read (.record fields)
    | object => pure (Target.ofValue object)
  if subject.isNothing ∨ predicate.isNothing then
    .error (.definition (.incomplete subject.plain predicate.plain))
  else if object.isText ∧ object.isNothing then
    .error (.definition (.emptyObject predicate.plain))
  else
    Checked.result <|
      Relation.mk <$> Checked.text ["subject_prefix"] subject
        <*> Checked.text ["predicate"] predicate <*> target

namespace Ontology

def empty : Ontology := ⟨[], .empty⟩

/-- Why a rule cannot be added, if it cannot. -/
def definitionFault? (ontology : Ontology) (relation : Relation) : Option DefinitionFault :=
  if relation.subject = "" ∨ relation.predicate = "" then
    some (.incomplete relation.subject relation.predicate)
  else if relation.target = .resource "" then some (.emptyObject relation.predicate)
  else if relation ∈ ontology.byPredicate.find relation.predicate then
    some (.repeated relation.text)
  else none

def define (ontology : Ontology) (relation : Relation) : Except Fault Ontology :=
  match ontology.definitionFault? relation with
  | some cause => .error (.definition cause)
  | none =>
      .ok ⟨ontology.relations ++ [relation],
        ontology.byPredicate.file relation.predicate relation⟩

/-- The ontology with more rules, up to the first that cannot be added. -/
def defineAll (ontology : Ontology) : List Relation → Ontology × Option Fault
  | [] => (ontology, none)
  | relation :: rest =>
      match ontology.define relation with
      | .ok next => next.defineAll rest
      | .error fault => (ontology, some fault)

def relationsFor (ontology : Ontology) (predicate : String) : List Relation :=
  ontology.byPredicate.find predicate

/-- The rules of a predicate whose pattern a subject fits. -/
def candidates (ontology : Ontology) (subject predicate : String) :
    Except ValidationFault (List Relation) :=
  match ontology.relationsFor predicate with
  | [] => .error (.unknownPredicate predicate)
  | relations =>
      match relations.filter (·.acceptsSubject subject) with
      | [] => .error (.subject (qualifierPattern subject) predicate)
      | fitting => .ok fitting

/-- The first candidate that passes a test, or the fault that says there is none. -/
def firstCandidate (ontology : Ontology) (subject predicate : String) (test : Relation → Bool)
    (otherwise : ValidationFault) : Except ValidationFault Relation := do
  match (← ontology.candidates subject predicate).find? test with
  | some relation => return relation
  | none => .error otherwise

def validateResource (ontology : Ontology) (subject predicate object : String) :
    Except ValidationFault Relation :=
  ontology.firstCandidate subject predicate (·.acceptsResource object)
    (.object (qualifierPattern object) predicate)

def validateCollection (ontology : Ontology) (subject predicate : String) (size : Nat) :
    Except ValidationFault Relation :=
  ontology.firstCandidate subject predicate (·.acceptsCollection size) (.size size predicate)

/-- The rule that accepts the triple of a literal, whatever the literal is. -/
def validateLiteral (ontology : Ontology) (subject predicate : String) :
    Except ValidationFault Relation :=
  ontology.firstCandidate subject predicate (·.acceptsLiteral) (.literal predicate)

/-- The rule that accepts what an unchecked subject and predicate lead to. A predicate that is no
text is in no rule, and no rule can be looked up for a list or a record; a subject that is no text
has no pattern to compare. -/
def judge (ontology : Ontology) (subject predicate : Value)
    (validate : String → String → Except ValidationFault Relation) : Except Fault Relation :=
  match subject, predicate with
  | .text subject, .text predicate => (validate subject predicate).mapError .validation
  | _, .text predicate =>
      if ontology.relationsFor predicate = [] then
        .error (.validation (.unknownPredicate predicate))
      else .error (.unsupported .part)
  | _, .list _ | _, .record _ => .error (.unsupported .operation)
  | _, predicate => .error (.validation (.unknownPredicate predicate.plain))

/-- The rule that accepts an unchecked object. A list is the collection it looks like; what is
neither a text nor a list is looked at last. -/
def judgeObject (ontology : Ontology) (subject predicate object : Value) : Except Fault Relation :=
  match object with
  | .text object =>
      ontology.judge subject predicate fun subject predicate =>
        ontology.validateResource subject predicate object
  | .list items =>
      ontology.judge subject predicate fun subject predicate =>
        ontology.validateCollection subject predicate items.length
  | _ => do
      let _ ← ontology.judge subject predicate fun subject predicate =>
        ontology.firstCandidate subject predicate (fun _ => true) (.literal predicate)
      .error (.unsupported .part)

/-- The rule that accepts a literal of an unchecked subject and predicate. -/
def judgeLiteral (ontology : Ontology) (subject predicate : Value) : Except Fault Relation :=
  ontology.judge subject predicate ontology.validateLiteral

/-- The rules as lines, by predicate and subject. -/
def lines (ontology : Ontology) : List String :=
  (ontology.relations.mergeSort Relation.le).map Relation.text

end Ontology

end CodeFacts
