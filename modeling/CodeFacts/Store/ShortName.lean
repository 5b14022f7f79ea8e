import CodeFacts.Text.Name
import CodeFacts.Vocabulary

/-!
Short names of resources: the key of a namespace and a name in it. Every document knows some
namespaces; others get keys where they are needed.
-/

namespace CodeFacts

/-- The characters no resource may hold where it is written between angles. -/
def angleStops : List Char := ['<', '>', '"', ' ', '{', '}', '|', '\\', '^', '\x60']

/-- Whether a resource can be written between angles. -/
def isWritable (text : String) : Bool := text.toList.all fun c => decide (c ∉ angleStops)

/-- The namespace of the terms that documents are made of. -/
def termSpace : String := "http://www.w3.org/1999/02/22-rdf-syntax-ns#"

/-- The namespace of the markup that elements are written in. -/
def markupSpace : String := "http://www.w3.org/XML/1998/namespace"

/-- The keys of the namespaces that every document knows. -/
def knownSpaces : List (String × String) := [
    ("brick", "https://brickschema.org/schema/Brick#"),
    ("csvw", "http://www.w3.org/ns/csvw#"),
    ("dc", "http://purl.org/dc/elements/1.1/"),
    ("dcat", "http://www.w3.org/ns/dcat#"),
    ("dcmitype", "http://purl.org/dc/dcmitype/"),
    ("dcterms", "http://purl.org/dc/terms/"),
    ("dcam", "http://purl.org/dc/dcam/"),
    ("doap", "http://usefulinc.com/ns/doap#"),
    ("foaf", "http://xmlns.com/foaf/0.1/"),
    ("geo", "http://www.opengis.net/ont/geosparql#"),
    ("odrl", "http://www.w3.org/ns/odrl/2/"),
    ("org", "http://www.w3.org/ns/org#"),
    ("prof", "http://www.w3.org/ns/dx/prof/"),
    ("prov", "http://www.w3.org/ns/prov#"),
    ("qb", "http://purl.org/linked-data/cube#"),
    ("schema", "https://schema.org/"),
    ("sh", "http://www.w3.org/ns/shacl#"),
    ("skos", "http://www.w3.org/2004/02/skos/core#"),
    ("sosa", "http://www.w3.org/ns/sosa/"),
    ("ssn", "http://www.w3.org/ns/ssn/"),
    ("time", "http://www.w3.org/2006/time#"),
    ("vann", "http://purl.org/vocab/vann/"),
    ("void", "http://rdfs.org/ns/void#"),
    ("wgs", "https://www.w3.org/2003/01/geo/wgs84_pos#"),
    ("owl", "http://www.w3.org/2002/07/owl#"),
    ("xsd", "http://www.w3.org/2001/XMLSchema#"),
    ("rdf", termSpace),
    ("rdfs", schemaSpace),
    ("xml", markupSpace),
    ("coder", modelSpace)]

/-- What stands before the first occurrence of some characters. -/
def before (mark : List Char) : List Char → List Char
  | [] => []
  | c :: rest => if mark.isPrefixOf (c :: rest) then [] else c :: before mark rest

/-- The last position whose character cannot stand inside a name. -/
def lastStop? (text : List Char) : Option Nat :=
  (text.reverse.findIdx? fun c => !Text.goesOnName c).map fun back => text.length - 1 - back

/-- A resource cut before the name it ends with. The name starts at the first fitting character from
the last one that is in no name; if none fits there, at the first of the whole text, which must
leave something before it. What the namespace of the markup starts is always cut there, whatever
follows it up to where that namespace is written again. -/
def splitName? (starts : Char → Bool) (text : List Char) : Option (List Char × List Char) :=
  let markup := markupSpace.toList
  if markup.isPrefixOf text then some (markup, before markup (text.drop markup.length))
  else do
    let stop ← lastStop? text
    let places := List.range text.length
    let start ← (places.drop stop ++ places).find? fun place => text[place]?.any starts
    if start = 0 then none else some (text.take start, text.drop start)

/-- Whether a character may start what a resource ends with; a digit may too. -/
def startsLocal (c : Char) : Bool := Text.startsName c || (Text.digitValue? c).isSome

end CodeFacts
