import CodeFacts.Fault
import CodeFacts.Store.Reference
import CodeFacts.Store.ShortName
import CodeFacts.Triple

/-!
Triples written as elements: a predicate is an element named for it, and the resources at its ends
are attributes. A predicate that names no element cannot be written.
-/

namespace CodeFacts.Element

/-- A predicate cut into the namespace and the name of its element, or why none is named for it. -/
def parts (predicate : String) : Except ValueFault (List Char × List Char) :=
  let text := predicate.toList
  let strict : Except ValueFault (List Char × List Char) :=
    match splitName? Text.startsName text with
    | some found => .ok found
    | none => .error (.unnamedElement predicate)
  if !isWritable predicate then .error (.unwritableElement predicate)
  else
    match splitName? startsLocal text with
    | some (space, name) => if Text.isName name then .ok (space, name) else strict
    | none =>
        if predicate ∈ knownSpaces.map (·.2) then strict else .error (.unsplitElement predicate)

def entities : List (List Char × Char) :=
  [("amp;".toList, '&'), ("lt;".toList, '<'), ("gt;".toList, '>'), ("quot;".toList, '"'),
    ("apos;".toList, '\'')]

/-- A character of an attribute that is read back; line ends and tabs are blanks there. -/
def attributeChar (c : Char) : Char := if c ∈ ['\t', '\n', '\r'] then ' ' else c

/-- An attribute that was written as it is, read back. -/
def attributeText : List Char → List Char
  | [] => []
  | '&' :: rest =>
      match entities.find? fun entry => entry.1.isPrefixOf rest with
      | some (name, c) => c :: attributeText (rest.drop name.length)
      | none => '&' :: attributeText rest
  | c :: rest => attributeChar c :: attributeText rest
termination_by text => text.length
decreasing_by all_goals simp only [List.length_drop, List.length_cons]; omega

/-- The parts of a text between its blanks. -/
def words (text : List Char) : List (List Char) :=
  (Text.splitOn ' ' (text.map fun c => if Text.isBlank c then ' ' else c)).filter (· ≠ [])

/-- The predicate of an element. Namespace and name are told apart by the blank between them, so
blanks in the namespace are lost, and of three parts the last. -/
def predicate (space name : List Char) : List Char :=
  let text := attributeText space ++ ' ' :: name
  match words text with
  | [_] => text
  | [first, second, _] => first ++ second
  | parts => parts.flatten

/-- The predicate of the items of a list, and what it starts with once they are numbered. -/
def itemTerm : String := termSpace ++ "li"

/-- The start of the predicates of numbered items. -/
def numberedItem : String := termSpace ++ "_"

/-- Triples with the items of each subject numbered in their order. -/
def numbered : (earlier : List Triple) → List Triple → List Triple
  | _, [] => []
  | earlier, triple :: rest =>
      let before := earlier.countP fun other =>
        other.subject == triple.subject && other.predicate == itemTerm
      let named :=
        if triple.predicate = itemTerm then
          { triple with predicate := numberedItem ++ toString (before + 1) }
        else triple
      named :: numbered (triple :: earlier) rest

/-- A triple read back from the element it was written as. -/
def readBack (place : List Char) (triple : Triple) : Except Fault Triple := do
  let resolved (text : List Char) : String := String.ofList (Reference.merged place text)
  match parts triple.predicate with
  | .error cause => .error (.value cause)
  | .ok (space, name) =>
      return {
        subject := resolved triple.subject.toList
        predicate := resolved (predicate space name)
        object := if triple.literal then triple.object else resolved triple.object.toList
        literal := triple.literal }

/-- Triples read back from the elements they were written as in a file at a place. -/
def exchange (place : String) (triples : List Triple) : Except Fault (List Triple) :=
  (numbered [] triples).mapM (readBack place.toList)

end CodeFacts.Element
