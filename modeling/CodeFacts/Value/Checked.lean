import CodeFacts.Fault
import CodeFacts.Text.Integer

/-!
Reading the fields of an untrusted record. All fields are read before any is refused, and the
problems come in the order of the fields.
-/

namespace CodeFacts

/-- What a field holds, or all that is wrong with it. -/
inductive Checked (α : Type) where
  | good (value : α)
  | bad (problems : List Problem)

namespace Checked

variable {α β : Type}

/-- A function of a field applied to another field; the problems of both are kept. -/
def apply (function : Checked (α → β)) (field : Checked α) : Checked β :=
  match function, field with
  | .good f, .good value => .good (f value)
  | .good _, .bad problems => .bad problems
  | .bad problems, .good _ => .bad problems
  | .bad problems, .bad more => .bad (problems ++ more)

instance : Applicative Checked where
  pure := .good
  seq function field := apply function (field ())

def problem (path : List String) (problem : FieldProblem) : Checked α :=
  .bad [⟨path, problem⟩]

/-- The value read, or the fault that says all that is wrong. -/
def result : Checked α → Except Fault α
  | .good value => .ok value
  | .bad problems => .error (.fields problems)

def text (path : List String) : Value → Checked String
  | .text value => .good value
  | _ => problem path .notText

def optionalText (path : List String) : Value → Checked (Option String)
  | .null => .good none
  | .text value => .good (some value)
  | _ => problem path .notText

/-- A whole number. Truth values, numbers without a fraction and texts of digits stand for one. -/
def integer (path : List String) : Value → Checked Int
  | .int value => .good value
  | .bool value => .good (if value then 1 else 0)
  | .real value =>
      match value.wholeness with
      | .whole value => .good value
      | .fractional => problem path .fractional
      | .tooLarge => problem path .tooLarge
      | .notFinite => problem path .notFinite
  | .text value =>
      match Text.readField value with
      | .ok value => .good value
      | .error .malformed => problem path .unreadableInteger
      | .error (.tooLong _) => problem path .tooLarge
  | _ => problem path .notInteger

/-- The items of a list, each read under its position. -/
def items (read : List String → Value → Checked α) (path : List String) : (start : Nat) →
    List Value → Checked (List α)
  | _, [] => .good []
  | start, item :: rest =>
      List.cons <$> read (path ++ [toString start]) item <*> items read path (start + 1) rest

def list (read : List String → Value → Checked α) (path : List String) : Value → Checked (List α)
  | .list values => items read path 0 values
  | _ => problem path .notList

def texts : List String → Value → Checked (List String) := list text

/-- A field that a record must have. -/
def required (read : List String → Value → Checked α) (path : List String) (name : String)
    (record : Value) : Checked α :=
  match record.field? name with
  | some value => read (path ++ [name]) value
  | none => problem (path ++ [name]) .missing

/-- A field that stands for something even where a record lacks it. -/
def optional (read : List String → Value → Checked α) (absent : α) (path : List String)
    (name : String) (record : Value) : Checked α :=
  match record.field? name with
  | some value => read (path ++ [name]) value
  | none => .good absent

end Checked

end CodeFacts
