import CodeFacts.Text.Decimal
import CodeFacts.Text.Quoted

/-!
Values that come from outside: what a term of a triple, a field of a recorded event or a request
may be before it is checked.
-/

namespace CodeFacts

/-- A value of unknown kind. The fields of a record keep the order they came in. -/
inductive Value where
  | null
  | bool (value : Bool)
  | int (value : Int)
  | real (value : Text.Numeral)
  | text (value : String)
  | list (items : List Value)
  | record (fields : List (String × Value))
  deriving Inhabited

namespace Value

def ofTexts (texts : List String) : Value := .list (texts.map .text)

def ofText? (text : Option String) : Value := text.elim .null .text

/-- The items a value is made of: those of a list, the characters of a text, the names of the fields
of a record. -/
def items? : Value → Option (List Value)
  | .list items => some items
  | .text value => some (value.toList.map fun c => .text (String.singleton c))
  | .record fields => some (fields.map fun field => .text field.1)
  | _ => none

def isText : Value → Bool
  | .text _ => true
  | _ => false

/-- Whether a value is a number with a point that is equal to a whole number. -/
def isReal (whole : Nat) : Value → Bool
  | .real value => value.toFloat == Float.ofNat whole
  | _ => false

/-- Whether a value stands for nothing: it is missing, false, zero or without items. -/
def isNothing : Value → Bool
  | .null => true
  | .bool value => !value
  | .int value => value == 0
  | .real value => value.toFloat == 0
  | .text value => value == ""
  | .list items => items.isEmpty
  | .record fields => fields.isEmpty

/-- The whole number a value is; truth values count as one and zero. -/
def whole? : Value → Option Int
  | .int value => some value
  | .bool value => some (if value then 1 else 0)
  | _ => none

/-- Whether a number is less than another one, if both values are numbers. -/
def less? (left right : Value) : Option Bool :=
  match left.whole?, right.whole?, left, right with
  | some left, some right, _, _ => some (decide (left < right))
  | some left, none, _, .real right => some (decide (Float.ofInt left < right.toFloat))
  | none, some right, .real left, _ => some (decide (left.toFloat < Float.ofInt right))
  | none, none, .real left, .real right => some (decide (left.toFloat < right.toFloat))
  | _, _, _, _ => none

/-- The last field of a name, for a record. -/
def field? (value : Value) (name : String) : Option Value :=
  match value with
  | .record fields => (fields.reverse.find? fun field => field.1 == name).map (·.2)
  | _ => none

theorem sizeOf_lt_of_field? {value field : Value} {name : String}
    (found : value.field? name = some field) : sizeOf field < sizeOf value := by
  cases value with
  | record fields =>
      obtain ⟨entry, entryFound, rfl⟩ := Option.map_eq_some_iff.mp found
      have member : entry ∈ fields := List.mem_reverse.mp (List.mem_of_find?_eq_some entryFound)
      have smaller := List.sizeOf_lt_of_mem member
      obtain ⟨key, held⟩ := entry
      simp only [Prod.mk.sizeOf_spec] at smaller
      simp only [record.sizeOf_spec]
      omega
  | _ => simp [field?] at found

mutual

/-- A value as messages show it: texts quoted, lists in brackets, records in braces. -/
def shown : Value → String
  | .null => "None"
  | .bool true => "True"
  | .bool false => "False"
  | .int value => Text.decimal value
  | .real value => Text.floatText value.toFloat
  | .text value => Text.quoted value
  | .list items => "[" ++ ", ".intercalate (shownItems items) ++ "]"
  | .record fields => "\x7b" ++ ", ".intercalate (shownFields fields) ++ "\x7d"

def shownItems : List Value → List String
  | [] => []
  | item :: items => shown item :: shownItems items

def shownFields : List (String × Value) → List String
  | [] => []
  | (name, value) :: fields => (Text.quoted name ++ ": " ++ shown value) :: shownFields fields

end

/-- A value inside a sentence: a text stands as it is, all else as messages show it. -/
def plain : Value → String
  | .text value => value
  | value => value.shown

end Value

end CodeFacts
