import CodeFacts.Identifier
import CodeFacts.Text.Integer
import CodeFacts.Value.Checked

/-!
References to types as declarations make them, and the identifier text each is stored as. Reading
the stored text gives the reference back, save that a throwable class is read as a class.
-/

namespace CodeFacts

/-- What a reference by name expects to find. -/
inductive NamedKind where
  | classType
  | interface
  | exception
  deriving DecidableEq, Repr

def NamedKind.entity : NamedKind → EntityKind
  | .classType => .classType
  | .interface => .interface
  | .exception => .classType

/-- A reference to a type. A reference by name may hold the identifier of the type around it;
without one the outer segments of the name are packages. -/
inductive TypeRef where
  | primitive (name : String)
  | named (kind : NamedKind) (name : String) (enclosing : Option String)
  | array (element : TypeRef) (dimensions : Int)
  deriving DecidableEq, Repr, Inhabited

namespace TypeRef

def primitiveNames : List String :=
  ["void", "boolean", "char", "byte", "short", "int", "long", "float", "double"]

def primitiveText (name : String) : String := resource (primitiveKey ++ ":" ++ name)

/-- The text every array type starts with. -/
def arrayStart : String := resource (arrayKey ++ ":")

def ofKeyword? (word : String) : Option TypeRef :=
  if word ∈ primitiveNames then some (.primitive word) else none

def text : TypeRef → Except Fault String
  | .primitive name => .ok (primitiveText name)
  | .named kind name (some enclosing) => do
      let enclosing ← Identifier.read enclosing
      return (← enclosing.child (Dotted.simple name) kind.entity.key).text
  | .named kind name none => do
      return (← Identifier.ofTypeName name kind.entity.key).text
  | .array element dimensions => do
      return arrayStart ++ Text.decimal dimensions ++ ":" ++ (← element.text)

/-- The name to resolve, none for types that need no resolving. -/
def referencedName? : TypeRef → Option String
  | .primitive _ => none
  | .named _ name _ => some name
  | .array element _ => element.referencedName?

/-- The type of an identifier: the kind of its last fragment, inside the type before it if there is
one. -/
def ofIdentifier (text : String) (id : Identifier) : Except Fault TypeRef :=
  match id.fragments.reverse with
  | [] => .error (.value (.noType text))
  | last :: outer =>
      let enclosing :=
        match outer with
        | next :: _ =>
            if next.qualifier = EntityKind.package.key then none else some id.parent.text
        | [] => none
      if last.qualifier = EntityKind.interface.key then
        .ok (.named .interface id.dottedName enclosing)
      else if last.qualifier ∈ [EntityKind.classType.key, EntityKind.enumeration.key] then
        .ok (.named .classType id.dottedName enclosing)
      else .error (.value (.typeQualifier text last.qualifier))

/-- The count of dimensions and the element type of an array text. -/
def arrayParts (text : List Char) : List Char × List Char :=
  (Text.cut ':' (text.drop arrayStart.length)).getD (text.drop arrayStart.length, [])

theorem length_arrayParts_lt {text : List Char} (array : arrayStart.toList <+: text) :
    (arrayParts text).2.length < text.length := by
  have bound : arrayStart.toList.length ≤ text.length := array.length_le
  have positive : 0 < arrayStart.toList.length := by decide +kernel
  unfold arrayParts
  cases found : Text.cut ':' (text.drop arrayStart.length) with
  | none => simp only [Option.getD_none, List.length_nil]; omega
  | some parts =>
      obtain ⟨count, element⟩ := parts
      have shape := congrArg List.length (Text.eq_of_cut found).1
      simp only [List.length_drop, List.length_append, List.length_cons] at shape
      simp only [Option.getD_some]
      omega

/-- The type of a stored text. The element of an array is read before its dimensions. -/
def readChars (text : List Char) : Except Fault TypeRef :=
  match primitiveNames.find? fun name => (primitiveText name).toList == text with
  | some name => .ok (.primitive name)
  | none =>
      if array : arrayStart.toList <+: text then
        have := length_arrayParts_lt array
        do
          let element ← readChars (arrayParts text).2
          let count := String.ofList (arrayParts text).1
          let dimensions ← readWhole count
          return .array element dimensions
      else do
        ofIdentifier (String.ofList text) (← Identifier.read (String.ofList text))
termination_by text.length

def read (text : String) : Except Fault TypeRef := readChars text.toList

def kindWord : NamedKind → String
  | .classType => "object"
  | .interface => "interface"
  | .exception => "exception"

def toValue : TypeRef → Value
  | .primitive name => .record [("t", .text "primitive"), ("name", .text name)]
  | .named kind name enclosing =>
      .record [("t", .text (kindWord kind)), ("name", .text name),
        ("enclosing", Value.ofText? enclosing)]
  | .array element dimensions =>
      .record [("t", .text "array"), ("element", element.toValue), ("dimensions", .int dimensions)]

/-- The reference by name of an unchecked record, or its primitive type. -/
def ofNamedValue (word : String) (record : Value) : Except Fault TypeRef :=
  let name := Checked.required Checked.text [] "name" record
  match [NamedKind.classType, .interface, .exception].find? fun kind => kindWord kind == word with
  | some kind => Checked.result <|
      named kind <$> name
        <*> Checked.optional Checked.optionalText none [] "enclosing" record
  | none => (primitive <$> name).result

def ofWordValue : Value → Except Fault TypeRef
  | .text name => .ok (.primitive name)
  | _ => .error (.unsupported .part)

/-- The reference of an unchecked record, or of the keyword of a primitive type. The element of an
array is read before its dimensions. -/
def ofValue (value : Value) : Except Fault TypeRef :=
  match value.field? "t" with
  | some (.text "array") =>
      let dimensions := Checked.optional Checked.integer 1 [] "dimensions" value
      match found : value.field? "element" with
      | none | some .null =>
          (array <$> Checked.problem ["element"] .notModel <*> dimensions).result
      | some element => do
          have := Value.sizeOf_lt_of_field? found
          let element ← ofValue element
          (array element <$> dimensions).result
  | some (.text word) => ofNamedValue word value
  | _ => ofWordValue value
termination_by sizeOf value

end TypeRef

end CodeFacts
