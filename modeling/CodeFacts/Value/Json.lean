import CodeFacts.Value.Basic

/-!
The JSON form of values. The printer writes ASCII without blanks and escapes every other
character; the reader takes any JSON text within its limits, the names of the numbers that are not
finite as well, and refuses lone halves of surrogate pairs.
-/

namespace CodeFacts.Json

open Text (digitsValue hexDigits signed)

/-- One character inside a JSON string. Characters beyond the sixteen-bit range are written as the
two halves of a surrogate pair. -/
def escapeChar (c : Char) : List Char :=
  let code := c.toNat
  if c = '"' then ['\\', '"']
  else if c = '\\' then ['\\', '\\']
  else if 0x20 ≤ code ∧ code < 0x7F then [c]
  else if code < 0x10000 then '\\' :: 'u' :: hexDigits 4 code
  else
    '\\' :: 'u' :: hexDigits 4 (0xD800 + (code - 0x10000) / 0x400) ++
      '\\' :: 'u' :: hexDigits 4 (0xDC00 + (code - 0x10000) % 0x400)

def infinityName : List Char := ['I', 'n', 'f', 'i', 'n', 'i', 't', 'y']

/-- The name of the mark of no number. -/
def undefinedName : List Char := ['N', 'a', 'N']

def stringText (text : String) : List Char :=
  '"' :: text.toList.flatMap escapeChar ++ ['"']

/-- A number that need not be whole. The two infinities and the mark of no number have names. -/
def realText (value : Text.Numeral) : List Char :=
  match Text.Parts.ofFloat value.toFloat with
  | .finite .. => (Text.floatText value.toFloat).toList
  | .infinite negative => if negative then '-' :: infinityName else infinityName
  | .undefined => undefinedName

mutual

def print : Value → List Char
  | .null => ['n', 'u', 'l', 'l']
  | .bool true => ['t', 'r', 'u', 'e']
  | .bool false => ['f', 'a', 'l', 's', 'e']
  | .int value => Text.integerText value
  | .real value => realText value
  | .text value => stringText value
  | .list items => '[' :: printItems items ++ [']']
  | .record fields => '{' :: printFields fields ++ ['}']

def printItems : List Value → List Char
  | [] => []
  | [item] => print item
  | item :: next :: items => print item ++ ',' :: printItems (next :: items)

def printFields : List (String × Value) → List Char
  | [] => []
  | [(name, value)] => stringText name ++ ':' :: print value
  | (name, value) :: next :: fields =>
      stringText name ++ ':' :: print value ++ ',' :: printFields (next :: fields)

end

def render (value : Value) : String :=
  String.ofList (print value)

/-- A text without the blanks JSON allows between tokens. -/
def skipBlanks (text : List Char) : List Char :=
  text.dropWhile fun c => c == ' ' || c == '\n' || c == '\t' || c == '\r'

/-- The value of a hexadecimal digit in either case. -/
def hexValue? (c : Char) : Option Nat :=
  if '0' ≤ c ∧ c ≤ '9' then some (c.toNat - 0x30)
  else if 'a' ≤ c ∧ c ≤ 'f' then some (c.toNat - 0x57)
  else if 'A' ≤ c ∧ c ≤ 'F' then some (c.toNat - 0x37)
  else none

def hexCode? (a b c d : Char) : Option Nat := do
  let a ← hexValue? a
  let b ← hexValue? b
  let c ← hexValue? c
  let d ← hexValue? d
  return ((a * 16 + b) * 16 + c) * 16 + d

def shortEscape? : Char → Option Char
  | '"' => some '"'
  | '\\' => some '\\'
  | '/' => some '/'
  | 'b' => some '\x08'
  | 'f' => some '\x0c'
  | 'n' => some '\n'
  | 'r' => some '\r'
  | 't' => some '\t'
  | _ => none

/-- The codes of a string up to its closing quote, and what follows it. -/
def readCodes : List Char → Option (List Nat × List Char)
  | [] => none
  | '"' :: rest => some ([], rest)
  | '\\' :: 'u' :: a :: b :: c :: d :: rest => do
      let code ← hexCode? a b c d
      let (codes, rest) ← readCodes rest
      return (code :: codes, rest)
  | '\\' :: c :: rest => do
      let c ← shortEscape? c
      let (codes, rest) ← readCodes rest
      return (c.toNat :: codes, rest)
  | c :: rest =>
      if c = '\\' ∨ c.toNat < 0x20 then none
      else do
        let (codes, rest) ← readCodes rest
        return (c.toNat :: codes, rest)

/-- The characters of codes, the two halves of a surrogate pair giving one. -/
def pairUp : List Nat → Option (List Char)
  | [] => some []
  | high :: rest =>
      if 0xD800 ≤ high ∧ high < 0xDC00 then
        match rest with
        | low :: rest =>
            if 0xDC00 ≤ low ∧ low < 0xE000 then
              (pairUp rest).map
                (Char.ofNat (0x10000 + (high - 0xD800) * 0x400 + (low - 0xDC00)) :: ·)
            else none
        | [] => none
      else if 0xDC00 ≤ high ∧ high < 0xE000 then none
      else (pairUp rest).map (Char.ofNat high :: ·)

def readString (text : List Char) : Option (String × List Char) := do
  let (codes, rest) ← readCodes text
  let chars ← pairUp codes
  return (String.ofList chars, rest)

/-- The digits a text starts with, and what follows them. -/
def spanDigits (text : List Char) : List Char × List Char :=
  (text.takeWhile Char.isDigit, text.dropWhile Char.isDigit)

/-- The exponent a text starts with, zero if there is none. -/
def readExponent (text : List Char) : Option (Option Int × List Char) :=
  match text with
  | c :: rest =>
      if c = 'e' ∨ c = 'E' then
        let (negative, rest) :=
          match rest with
          | '-' :: rest => (true, rest)
          | '+' :: rest => (false, rest)
          | rest => (false, rest)
        let (digits, rest) := spanDigits rest
        if digits = [] then none
        else
          let size : Int := digitsValue digits
          some (some (if negative then -size else size), rest)
      else some (none, text)
  | [] => some (none, [])

/-- The digits after a decimal point, none if there is no point. -/
def readFraction (text : List Char) : Option (Option (List Char) × List Char) :=
  match text with
  | '.' :: rest =>
      let (digits, rest) := spanDigits rest
      if digits = [] then none else some (some digits, rest)
  | rest => some (none, rest)

/-- What a reader of JSON refuses to read although it is JSON: more containers around one another
than `nesting`, the empty ones not counted, and numbers with more than `digits` digits before the
point. -/
structure Limits where
  nesting : Nat
  digits : Nat

/-- A number; it is whole when it has neither point nor exponent. -/
def readNumber (limits : Limits) (text : List Char) : Option (Value × List Char) := do
  let (negative, rest) :=
    match text with
    | '-' :: rest => (true, rest)
    | rest => (false, rest)
  let (whole, rest) := spanDigits rest
  match whole with
  | [] =>
      if infinityName.isPrefixOf rest then
        some (.real (.infinite negative), rest.drop infinityName.length)
      else none
  | '0' :: _ :: _ => none
  | _ =>
      if limits.digits < whole.length then none
      else
        let (fraction, rest) ← readFraction rest
        let (exponent, rest) ← readExponent rest
        match fraction, exponent with
        | none, none => return (.int (signed negative (digitsValue whole)), rest)
        | _, _ =>
            let places := fraction.getD []
            return (.real (.decimal negative (digitsValue (whole ++ places))
              (exponent.getD 0 - places.length)), rest)

mutual

/-- A value, within a bound on the values in it. It may hold something only where the containers
around it leave room for another. -/
def readValue (limits : Limits) : (bound room : Nat) → List Char → Option (Value × List Char)
  | 0, _, _ => none
  | bound + 1, room, text =>
      match skipBlanks text with
      | '{' :: rest =>
          match skipBlanks rest, room with
          | '}' :: rest, _ => some (.record [], rest)
          | _, 0 => none
          | rest, room + 1 =>
              (readFields limits bound room rest).map fun (fields, rest) => (.record fields, rest)
      | '[' :: rest =>
          match skipBlanks rest, room with
          | ']' :: rest, _ => some (.list [], rest)
          | _, 0 => none
          | rest, room + 1 =>
              (readItems limits bound room rest).map fun (items, rest) => (.list items, rest)
      | '"' :: rest => (readString rest).map fun (value, rest) => (.text value, rest)
      | 'n' :: 'u' :: 'l' :: 'l' :: rest => some (.null, rest)
      | 't' :: 'r' :: 'u' :: 'e' :: rest => some (.bool true, rest)
      | 'f' :: 'a' :: 'l' :: 's' :: 'e' :: rest => some (.bool false, rest)
      | 'N' :: 'a' :: 'N' :: rest => some (.real .undefined, rest)
      | rest => readNumber limits rest

/-- The items of a list up to its closing bracket; there is at least one. -/
def readItems (limits : Limits) : (bound room : Nat) → List Char →
    Option (List Value × List Char)
  | 0, _, _ => none
  | bound + 1, room, text => do
      let (item, rest) ← readValue limits bound room text
      match skipBlanks rest with
      | ',' :: rest =>
          let (items, rest) ← readItems limits bound room rest
          return (item :: items, rest)
      | ']' :: rest => return ([item], rest)
      | _ => none

/-- The fields of a record up to its closing brace; there is at least one. -/
def readFields (limits : Limits) : (bound room : Nat) → List Char →
    Option (List (String × Value) × List Char)
  | 0, _, _ => none
  | bound + 1, room, text => do
      let (name, rest) ←
        match skipBlanks text with
        | '"' :: rest => readString rest
        | _ => none
      match skipBlanks rest with
      | ':' :: rest =>
          let (value, rest) ← readValue limits bound room rest
          match skipBlanks rest with
          | ',' :: rest =>
              let (fields, rest) ← readFields limits bound room rest
              return ((name, value) :: fields, rest)
          | '}' :: rest => return ([(name, value)], rest)
          | _ => none
      | _ => none

end

/-- The value a JSON text stands for, if it is one within the limits. A text has no more values
than characters, so its length bounds them. -/
def parseWithin? (limits : Limits) (text : String) : Option Value := do
  let chars := text.toList
  let (value, rest) ← readValue limits (chars.length + 1) limits.nesting chars
  if skipBlanks rest = [] then some value else none

/-- The value a JSON text stands for, if it is one. Its length bounds what could be limited. -/
def parse? (text : String) : Option Value :=
  parseWithin? ⟨text.length, text.length⟩ text

end CodeFacts.Json
