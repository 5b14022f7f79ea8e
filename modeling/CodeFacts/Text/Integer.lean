import CodeFacts.Text.Blank

/-!
Reading whole numbers. A number in a sentence is written in the decimal digits of any script; blanks
may stand around it, a sign before it and single underscores between its digits. A number in a field
is written in ASCII digits, and may have zeros before and after it besides.
-/

namespace CodeFacts.Text

/-- The code points of the digit zero in each script; its nine successors are the other digits. -/
def digitZeros : List Nat := [
    0x30, 0x660, 0x6F0, 0x7C0, 0x966, 0x9E6, 0xA66, 0xAE6, 0xB66, 0xBE6, 0xC66, 0xCE6, 0xD66,
    0xDE6, 0xE50, 0xED0, 0xF20, 0x1040, 0x1090, 0x17E0, 0x1810, 0x1946, 0x19D0, 0x1A80, 0x1A90,
    0x1B50, 0x1BB0, 0x1C40, 0x1C50, 0xA620, 0xA8D0, 0xA900, 0xA9D0, 0xA9F0, 0xAA50, 0xABF0,
    0xFF10, 0x104A0, 0x10D30, 0x11066, 0x110F0, 0x11136, 0x111D0, 0x112F0, 0x11450, 0x114D0,
    0x11650, 0x116C0, 0x11730, 0x118E0, 0x11950, 0x11C50, 0x11D50, 0x11DA0, 0x16A60, 0x16AC0,
    0x16B50, 0x1D7CE, 0x1D7D8, 0x1D7E2, 0x1D7EC, 0x1D7F6, 0x1E140, 0x1E2F0, 0x1E950, 0x1FBF0]

def digitValue? (c : Char) : Option Nat :=
  (digitZeros.find? fun first => first ≤ c.toNat && c.toNat < first + 10).map (c.toNat - ·)

/-- The most digits a written whole number may have. -/
def digitLimit : Nat := 4300

/-- Why a text is not read as a whole number. -/
inductive IntegerFault where
  | malformed
  | tooLong (digits : Nat)
  deriving DecidableEq

/-- The value and the number of the digits so far and of the digits a text goes on with, and what
follows those. Single underscores may stand between digits. -/
def continueNumber (value count : Nat) : List Char → Option (Nat × Nat × List Char)
  | [] => some (value, count, [])
  | ['_'] => none
  | '_' :: c :: rest =>
      (digitValue? c).bind fun digit => continueNumber (10 * value + digit) (count + 1) rest
  | c :: rest =>
      match digitValue? c with
      | some digit => continueNumber (10 * value + digit) (count + 1) rest
      | none => some (value, count, c :: rest)

/-- The value of a text of digits, single underscores between them. Their number is looked at
before what follows them. -/
def readNumber : List Char → Except IntegerFault Nat
  | [] => .error .malformed
  | c :: rest =>
      match (digitValue? c).bind fun digit => continueNumber digit 1 rest with
      | none => .error .malformed
      | some (value, count, rest) =>
          if digitLimit < count then .error (.tooLong count)
          else if rest = [] then .ok value
          else .error .malformed

/-- A number with a minus sign before it or without. -/
def signed (negative : Bool) (size : Nat) : Int := if negative then -(size : Int) else size

/-- The value of a number with an optional sign before it. -/
def readSigned : List Char → Except IntegerFault Int
  | '-' :: rest => (readNumber rest).map (signed true)
  | '+' :: rest => (readNumber rest).map (signed false)
  | text => (readNumber text).map (signed false)

/-- The blanks that may stand around a number. The separators are not among them. -/
def isPadding (c : Char) : Bool := isBlank c && !(0x1C ≤ c.toNat && c.toNat ≤ 0x1F)

/-- A text without the blanks around a number. -/
def dropPadding (text : List Char) : List Char :=
  ((text.dropWhile isPadding).reverse.dropWhile isPadding).reverse

def readInteger (text : String) : Except IntegerFault Int :=
  readSigned (dropPadding text.toList)

def digitsValue (digits : List Char) : Nat :=
  digits.foldl (fun value c => 10 * value + (c.toNat - 0x30)) 0

/-- The value of a number in its shortest form: an optional minus sign and ASCII digits, no zero
before another digit. -/
def readShortest (text : List Char) : Except IntegerFault Int :=
  let (negative, body) :=
    match text with
    | '-' :: rest => (true, rest)
    | rest => (false, rest)
  let digits := body.takeWhile Char.isDigit
  match digits with
  | [] => .error .malformed
  | '0' :: _ => if body = ['0'] then .ok 0 else .error .malformed
  | _ =>
      if digitLimit < digits.length then .error (.tooLong digits.length)
      else if digits.length = body.length then .ok (signed negative (digitsValue digits))
      else .error .malformed

/-- What follows the zeros and underscores at the start of a number, with one of them kept where
nothing or a point follows. A minus sign may follow them. -/
def pastZeros (last : Char) : List Char → Option (List Char)
  | [] => some [last]
  | c :: rest =>
      if c = '0' ∨ c = '_' then pastZeros c rest
      else if c = '.' then some (last :: c :: rest)
      else if c.isDigit ∨ c = '-' then some (c :: rest)
      else none

/-- A number that starts with a digit without the zeros before its first other digit. -/
def dropZeros : List Char → Option (List Char)
  | [] => none
  | c :: rest =>
      if c = '0' then pastZeros c rest
      else if c.isDigit then some (c :: rest)
      else none

/-- A number without a point and zeros at its end. -/
def dropPlaces (text : List Char) : List Char :=
  match text.dropWhile (· != '.') with
  | '.' :: '0' :: zeros => if zeros.all (· == '0') then text.takeWhile (· != '.') else text
  | _ => text

def hasDoubleUnderscore : List Char → Bool
  | [] => false
  | c :: rest => (c == '_' && rest.head? == some '_') || hasDoubleUnderscore rest

/-- A number without single underscores inside it. -/
def dropUnderscores (text : List Char) : List Char :=
  if text.head? = some '_' ∨ text.getLast? = some '_' ∨ hasDoubleUnderscore text then text
  else text.filter (· != '_')

/-- The shortest form of a number with blanks around it, a plus sign, leading zeros, a point and
zeros at its end or underscores. -/
def shorten? (text : List Char) : Option (List Char) :=
  let clean (body : List Char) : Option (List Char) :=
    (dropZeros body).map fun rest => dropUnderscores (dropPlaces rest)
  match dropPadding text with
  | '-' :: rest => (clean rest).map ('-' :: ·)
  | '+' :: rest => clean rest
  | rest => clean rest

/-- The whole number a field's text stands for. Only a text that is in its shortest form already is
too long; one that has to be shortened first is malformed. -/
def readField (text : String) : Except IntegerFault Int :=
  match readShortest text.toList with
  | .error .malformed =>
      match (shorten? text.toList).map readShortest with
      | some (.ok value) => .ok value
      | _ => .error .malformed
  | result => result

/-- The digits of a number in base ten. -/
def naturalText (value : Nat) : List Char :=
  if value < 10 then [Char.ofNat (0x30 + value)]
  else naturalText (value / 10) ++ [Char.ofNat (0x30 + value % 10)]

/-- A whole number in base ten, with a minus sign when it is negative. -/
def integerText : Int → List Char
  | .ofNat value => naturalText value
  | .negSucc value => '-' :: naturalText (value + 1)

def decimal (value : Int) : String :=
  String.ofList (integerText value)

end CodeFacts.Text
