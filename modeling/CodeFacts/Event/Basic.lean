import CodeFacts.Call
import CodeFacts.Modifier
import CodeFacts.Value.Checked

/-!
Recorded calls. Types are kept as the texts they are stored as, modifiers as one mask, and every
field is checked before the call is recorded.
-/

namespace CodeFacts

inductive Event where
  | startParsing (library location : String)
  | endParsing
  | startUnit (name : String)
  | endUnit
  | startPackage (name : String)
  | endPackage
  | startClass (visibility : Visibility) (name : String) (modifiers : Int)
      (extended : Option String) (implemented : List String)
  | endClass
  | startInterface (name : String) (extended : List String) (visibility : Visibility)
      (modifiers : Int)
  | endInterface
  | startEnumeration (visibility : Visibility) (name : String) (elements : List String)
      (modifiers : Int) (implemented : List String)
  | endEnumeration
  | attribute (visibility : Visibility) (name type : String) (modifiers : Int)
      (value : Option String)
  | constructor (visibility : Visibility) (overload : Int) (parameters types : List String)
      (modifiers : Int) (exceptions : List String)
  | method (visibility : Visibility) (name : String) (parameters types : List String)
      (result : String) (modifiers : Int) (exceptions : List String) (overload : Int)
  | parseError (location description : String)
  | parsedEntry (entry : DocEntry)
  | classDoc (entry : DocEntry) (path : String)
  | methodDoc (entry : DocEntry) (path : String) (signature : List String)
  deriving DecidableEq

namespace Event

def readVisibility (path : List String) (value : Value) : Checked Visibility :=
  match Visibility.ofValue? value with
  | some visibility => .good visibility
  | none => Checked.problem path .notChoice

/-- The items of an unchecked value, which must have some. -/
def itemsOf (value : Value) : Except Fault (List Value) :=
  match value.items? with
  | some items => .ok items
  | none => .error (.unsupported .operation)

def typeTexts (types : List TypeRef) : Except Fault (List String) := types.mapM TypeRef.text

def maskOf (modifiers : List Nat) : Int := Modifier.mask modifiers

/-- The event that records a call. Types are written before the fields are checked. -/
def ofCall : Call → Except Fault Event
  | .startParsing library location => Checked.result <|
      startParsing <$> Checked.text ["library_name"] library
        <*> Checked.text ["location"] location
  | .endParsing => .ok .endParsing
  | .startUnit name => (startUnit <$> Checked.text ["identifier"] name).result
  | .endUnit => .ok .endUnit
  | .startPackage name => (startPackage <$> Checked.text ["name"] name).result
  | .endPackage => .ok .endPackage
  | .startClass visibility name modifiers extended implemented => do
      let extended ← extended.mapM TypeRef.text
      let implemented ← typeTexts implemented
      let (visibility, name) ← Checked.result <|
        Prod.mk <$> readVisibility ["visibility"] visibility <*> Checked.text ["name"] name
      return .startClass visibility name (maskOf modifiers) extended implemented
  | .endClass => .ok .endClass
  | .startInterface name extended visibility modifiers => do
      let extended ← typeTexts extended
      let (name, visibility) ← Checked.result <|
        Prod.mk <$> Checked.text ["name"] name <*> readVisibility ["visibility"] visibility
      return .startInterface name extended visibility (maskOf modifiers)
  | .endInterface => .ok .endInterface
  | .startEnumeration visibility name elements modifiers implemented => do
      let elements ← itemsOf elements
      let implemented ← typeTexts implemented
      let (visibility, name, elements) ← Checked.result <|
        (fun visibility name elements => (visibility, name, elements))
          <$> readVisibility ["visibility"] visibility <*> Checked.text ["name"] name
          <*> Checked.texts ["elements"] (.list elements)
      return .startEnumeration visibility name elements (maskOf modifiers) implemented
  | .endEnumeration => .ok .endEnumeration
  | .attribute visibility name type modifiers value => do
      let type ← type.text
      let (visibility, name, value) ← Checked.result <|
        (fun visibility name value => (visibility, name, value))
          <$> readVisibility ["visibility"] visibility <*> Checked.text ["name"] name
          <*> Checked.optionalText ["value"] value
      return .attribute visibility name type (maskOf modifiers) value
  | .constructor visibility overload parameters types modifiers exceptions => do
      let parameters ← itemsOf parameters
      let types ← typeTexts types
      let exceptions ← typeTexts exceptions
      let (visibility, overload, parameters) ← Checked.result <|
        (fun visibility overload parameters => (visibility, overload, parameters))
          <$> readVisibility ["visibility"] visibility
          <*> Checked.integer ["overload_index"] overload
          <*> Checked.texts ["parameter_names"] (.list parameters)
      return .constructor visibility overload parameters types (maskOf modifiers) exceptions
  | .method visibility name parameters types result modifiers exceptions overload => do
      let parameters ← itemsOf parameters
      let types ← typeTexts types
      let result ← writtenResult result
      let exceptions ← typeTexts exceptions
      let (visibility, name, parameters, overload) ← Checked.result <|
        (fun visibility name parameters overload => (visibility, name, parameters, overload))
          <$> readVisibility ["visibility"] visibility <*> Checked.text ["name"] name
          <*> Checked.texts ["parameter_names"] (.list parameters)
          <*> Checked.integer ["overload_index"] overload
      return .method visibility name parameters types result (maskOf modifiers) exceptions overload
  | .parseError location description => Checked.result <|
      parseError <$> Checked.text ["location"] location
        <*> Checked.text ["description"] description
  | .parsedEntry entry => .ok (.parsedEntry entry)
  | .classDoc entry path => (classDoc entry <$> Checked.text ["path_to_class"] path).result
  | .methodDoc entry path signature => do
      let signature ← itemsOf signature
      Checked.result <|
        methodDoc entry <$> Checked.text ["path_to_method"] path
          <*> Checked.texts ["signature"] (.list signature)
where
  /-- The stored text of the result of a method, which must be there. -/
  writtenResult : Option TypeRef → Except Fault String
    | some type => type.text
    | none => .error (.unsupported .part)

/-- The bits of the modifiers a mask has. -/
def bitsOf (mask : Int) : List Nat := (Modifier.ofMask mask).map Modifier.bit

def readTypes (texts : List String) : Except Fault (List TypeRef) := texts.mapM TypeRef.read

/-- The call an event stands for. The empty text of an extended class stands for none. -/
def toCall : Event → Except Fault Call
  | .startParsing library location => .ok (.startParsing (.text library) (.text location))
  | .endParsing => .ok .endParsing
  | .startUnit name => .ok (.startUnit (.text name))
  | .endUnit => .ok .endUnit
  | .startPackage name => .ok (.startPackage (.text name))
  | .endPackage => .ok .endPackage
  | .startClass visibility name modifiers extended implemented => do
      let extended ← (extended.filter (· != "")).mapM TypeRef.read
      let implemented ← readTypes implemented
      return .startClass (.text visibility.word) (.text name) (bitsOf modifiers) extended
        implemented
  | .endClass => .ok .endClass
  | .startInterface name extended visibility modifiers => do
      let extended ← readTypes extended
      return .startInterface (.text name) extended (.text visibility.word) (bitsOf modifiers)
  | .endInterface => .ok .endInterface
  | .startEnumeration visibility name elements modifiers implemented => do
      let implemented ← readTypes implemented
      return .startEnumeration (.text visibility.word) (.text name) (Value.ofTexts elements)
        (bitsOf modifiers) implemented
  | .endEnumeration => .ok .endEnumeration
  | .attribute visibility name type modifiers value => do
      let type ← TypeRef.read type
      return .attribute (.text visibility.word) (.text name) type (bitsOf modifiers)
        (Value.ofText? value)
  | .constructor visibility overload parameters types modifiers exceptions => do
      let types ← readTypes types
      let exceptions ← readTypes exceptions
      return .constructor (.text visibility.word) (.int overload) (Value.ofTexts parameters) types
        (bitsOf modifiers) exceptions
  | .method visibility name parameters types result modifiers exceptions overload => do
      let types ← readTypes types
      let result ← TypeRef.read result
      let exceptions ← readTypes exceptions
      return .method (.text visibility.word) (.text name) (Value.ofTexts parameters) types
        (some result) (bitsOf modifiers) exceptions (.int overload)
  | .parseError location description =>
      .ok (.parseError (.text location) (.text description))
  | .parsedEntry entry => .ok (.parsedEntry entry)
  | .classDoc entry path => .ok (.classDoc entry (.text path))
  | .methodDoc entry path signature =>
      .ok (.methodDoc entry (.text path) (Value.ofTexts signature))

/-- Events handled one after the other, up to the first that stands for no call or is refused. -/
def replay {η : Type} [Handler η] (state : η) : List Event → Option Fault × List Notice × η
  | [] => (none, [], state)
  | event :: rest =>
      match event.toCall with
      | .error fault => (some fault, [], state)
      | .ok call =>
          let (reply, next) := Handler.handle call state
          match reply.outcome with
          | .error fault => (some fault, reply.notices, next)
          | .ok _ =>
              let (fault, notices, last) := replay next rest
              (fault, reply.notices ++ notices, last)

end Event

end CodeFacts
