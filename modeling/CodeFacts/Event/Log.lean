import CodeFacts.Event.Basic
import CodeFacts.Value.Json

/-!
Event logs and their JSON form. Each event is a record tagged with its kind; reading the form of a
log gives its events back, and fields that a record lacks stand for their defaults where they have
one.
-/

namespace CodeFacts

namespace DocEntry

def toValue (entry : DocEntry) : Value :=
  .record
    [("short_description", .text entry.short),
      ("long_description", .text entry.long),
      ("tags", .record (entry.tags.map fun (name, values) => (name, Value.ofTexts values))),
      ("row", .int entry.row),
      ("column", .int entry.column)]

/-- The tags of a record, each with a list of texts. A name that comes again replaces the values
it had. -/
def readTags (path : List String) : Value → Checked (List (String × List String))
  | .record fields =>
      let read (field : String × Value) : Checked (String × List String) :=
        (field.1, ·) <$> Checked.texts (path ++ [field.1]) field.2
      let all := fields.foldr (fun field rest => List.cons <$> read field <*> rest) (.good [])
      Entries.ofList <$> all
  | _ => Checked.problem path .notRecord

def ofValue (path : List String) (value : Value) : Checked DocEntry :=
  match value with
  | .record _ =>
      DocEntry.mk <$> Checked.optional Checked.text "" path "short_description" value
        <*> Checked.optional Checked.text "" path "long_description" value
        <*> Checked.optional readTags [] path "tags" value
        <*> Checked.optional Checked.integer 0 path "row" value
        <*> Checked.optional Checked.integer 0 path "column" value
  | _ => Checked.problem path .notModel

end DocEntry

namespace Event

def kind : Event → String
  | .startParsing .. => "start_parsing"
  | .endParsing => "end_parsing"
  | .startUnit .. => "start_compilation_unit"
  | .endUnit => "end_compilation_unit"
  | .startPackage .. => "start_package"
  | .endPackage => "end_package"
  | .startClass .. => "start_class"
  | .endClass => "end_class"
  | .startInterface .. => "start_interface"
  | .endInterface => "end_interface"
  | .startEnumeration .. => "start_enumeration"
  | .endEnumeration => "end_enumeration"
  | .attribute .. => "attribute"
  | .constructor .. => "constructor"
  | .method .. => "method"
  | .parseError .. => "parse_error"
  | .parsedEntry .. => "parsed_entry"
  | .classDoc .. => "class_javadoc"
  | .methodDoc .. => "method_javadoc"

def fields : Event → List (String × Value)
  | .startParsing library location =>
      [("library_name", .text library), ("location", .text location)]
  | .startUnit name => [("identifier", .text name)]
  | .startPackage name => [("name", .text name)]
  | .startClass visibility name modifiers extended implemented =>
      [("visibility", .text visibility.word), ("name", .text name),
        ("modifiers", .int modifiers), ("extended_class", Value.ofText? extended),
        ("implemented_interfaces", Value.ofTexts implemented)]
  | .startInterface name extended visibility modifiers =>
      [("name", .text name), ("extended_interfaces", Value.ofTexts extended),
        ("visibility", .text visibility.word), ("modifiers", .int modifiers)]
  | .startEnumeration visibility name elements modifiers implemented =>
      [("visibility", .text visibility.word), ("name", .text name),
        ("elements", Value.ofTexts elements), ("modifiers", .int modifiers),
        ("implemented_interfaces", Value.ofTexts implemented)]
  | .attribute visibility name type modifiers value =>
      [("visibility", .text visibility.word), ("name", .text name),
        ("attribute_type", .text type), ("modifiers", .int modifiers),
        ("value", Value.ofText? value)]
  | .constructor visibility overload parameters types modifiers exceptions =>
      [("visibility", .text visibility.word), ("overload_index", .int overload),
        ("parameter_names", Value.ofTexts parameters), ("parameter_types", Value.ofTexts types),
        ("modifiers", .int modifiers), ("exceptions", Value.ofTexts exceptions)]
  | .method visibility name parameters types result modifiers exceptions overload =>
      [("visibility", .text visibility.word), ("name", .text name),
        ("parameter_names", Value.ofTexts parameters), ("parameter_types", Value.ofTexts types),
        ("return_type", .text result), ("modifiers", .int modifiers),
        ("exceptions", Value.ofTexts exceptions), ("overload_index", .int overload)]
  | .parseError location description =>
      [("location", .text location), ("description", .text description)]
  | .parsedEntry entry => [("entry", entry.toValue)]
  | .classDoc entry path => [("entry", entry.toValue), ("path_to_class", .text path)]
  | .methodDoc entry path signature =>
      [("entry", entry.toValue), ("path_to_method", .text path),
        ("signature", Value.ofTexts signature)]
  | .endParsing | .endUnit | .endPackage | .endClass | .endInterface | .endEnumeration => []

def toValue (event : Event) : Value :=
  .record (("kind", .text event.kind) :: event.fields)

/-- The event of a record with a given tag, none if there is no such tag. -/
def ofTagged? (path : List String) (record : Value) (tag : String) : Option (Checked Event) :=
  let text := Checked.required Checked.text path
  let entry := Checked.required DocEntry.ofValue path "entry" record
  let visibility := Checked.required readVisibility path "visibility" record
  let modifiers := Checked.optional Checked.integer 0 path "modifiers" record
  let texts := fun name => Checked.optional Checked.texts [] path name record
  match tag with
  | "start_parsing" =>
      some (startParsing <$> text "library_name" record <*> text "location" record)
  | "end_parsing" => some (.good endParsing)
  | "start_compilation_unit" => some (startUnit <$> text "identifier" record)
  | "end_compilation_unit" => some (.good endUnit)
  | "start_package" => some (startPackage <$> text "name" record)
  | "end_package" => some (.good endPackage)
  | "start_class" =>
      some (startClass <$> visibility <*> text "name" record <*> modifiers
        <*> Checked.optional Checked.optionalText none path "extended_class" record
        <*> texts "implemented_interfaces")
  | "end_class" => some (.good endClass)
  | "start_interface" =>
      some (startInterface <$> text "name" record <*> texts "extended_interfaces"
        <*> Checked.optional readVisibility .publicAccess path "visibility" record <*> modifiers)
  | "end_interface" => some (.good endInterface)
  | "start_enumeration" =>
      some (startEnumeration <$> visibility <*> text "name" record <*> texts "elements"
        <*> modifiers <*> texts "implemented_interfaces")
  | "end_enumeration" => some (.good endEnumeration)
  | "attribute" =>
      some (Event.attribute <$> visibility <*> text "name" record <*> text "attribute_type" record
        <*> modifiers <*> Checked.optional Checked.optionalText none path "value" record)
  | "constructor" =>
      some (constructor <$> visibility
        <*> Checked.required Checked.integer path "overload_index" record
        <*> texts "parameter_names" <*> texts "parameter_types" <*> modifiers
        <*> texts "exceptions")
  | "method" =>
      some (method <$> visibility <*> text "name" record <*> texts "parameter_names"
        <*> texts "parameter_types" <*> text "return_type" record <*> modifiers
        <*> texts "exceptions"
        <*> Checked.optional Checked.integer 0 path "overload_index" record)
  | "parse_error" => some (parseError <$> text "location" record <*> text "description" record)
  | "parsed_entry" => some (parsedEntry <$> entry)
  | "class_javadoc" => some (classDoc <$> entry <*> text "path_to_class" record)
  | "method_javadoc" =>
      some (methodDoc <$> entry <*> text "path_to_method" record <*> texts "signature")
  | _ => none

/-- The event of a value, which must be a record with a known tag. -/
def ofValue (path : List String) (value : Value) : Checked Event :=
  match value with
  | .record _ =>
      match value.field? "kind" with
      | none => Checked.problem path .missingTag
      | some (.text tag) =>
          (ofTagged? (path ++ [tag]) value tag).getD (Checked.problem path .unknownTag)
      | some _ => Checked.problem path .unknownTag
  | _ => Checked.problem path .notRecord

end Event

namespace EventLog

def toValue (events : List Event) : Value :=
  .record [("events", .list (events.map Event.toValue))]

def render (events : List Event) : String := Json.render (toValue events)

def ofValue (value : Value) : Except Fault (List Event) :=
  match value with
  | .record _ =>
      (Checked.optional (Checked.list Event.ofValue) [] [] "events" value).result
  | _ => .error (.field [] .notModel)

/-- What the reader of logs takes from a JSON text. -/
def limits : Json.Limits := ⟨200, Text.digitLimit⟩

def read (text : String) : Except Fault (List Event) :=
  match Json.parseWithin? limits text with
  | some value => ofValue value
  | none => .error (.field [] .notJson)

end EventLog

end CodeFacts
