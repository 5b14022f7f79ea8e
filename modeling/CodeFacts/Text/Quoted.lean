import CodeFacts.Text.Printable

/-!
Quoted texts, as they stand in messages. A text stands between single quotes, or between double
quotes when it holds single quotes only; what cannot be shown is escaped.
-/

namespace CodeFacts.Text

def hexDigit (digit : Nat) : Char :=
  if digit < 10 then Char.ofNat (0x30 + digit) else Char.ofNat (0x57 + digit)

/-- The last digits of a number in base sixteen, as many as asked for. -/
def hexDigits : (width : Nat) → (value : Nat) → List Char
  | 0, _ => []
  | width + 1, value => hexDigits width (value / 16) ++ [hexDigit (value % 16)]

/-- A character by its code point: two digits, four or eight, the least that suffice. -/
def escapeCode (c : Char) : List Char :=
  let code := c.toNat
  if code < 0x100 then '\\' :: 'x' :: hexDigits 2 code
  else if code < 0x10000 then '\\' :: 'u' :: hexDigits 4 code
  else '\\' :: 'U' :: hexDigits 8 code

def quoteChar (mark : Char) (c : Char) : List Char :=
  if c = mark ∨ c = '\\' then ['\\', c]
  else if c = '\n' then ['\\', 'n']
  else if c = '\r' then ['\\', 'r']
  else if c = '\t' then ['\\', 't']
  else if isPrintable c then [c]
  else escapeCode c

/-- The quote mark of a text: double only where that spares an escape. -/
def quoteMark (text : List Char) : Char :=
  if '\'' ∈ text ∧ '"' ∉ text then '"' else '\''

def quote (text : List Char) : List Char :=
  let mark := quoteMark text
  mark :: text.flatMap (quoteChar mark) ++ [mark]

def quoted (text : String) : String :=
  String.ofList (quote text.toList)

/-- One byte inside quotes; only those of printable characters of one byte stand for themselves. -/
def quoteByte (mark : Char) (byte : UInt8) : List Char :=
  let c := Char.ofNat byte.toNat
  if byte.toNat < 0x7F then quoteChar mark c else escapeCode c

def quotedBytes (bytes : List UInt8) : String :=
  let mark := quoteMark (bytes.map fun byte => Char.ofNat byte.toNat)
  String.ofList ('b' :: mark :: bytes.flatMap (quoteByte mark) ++ [mark])

/-- The start of a text, no longer than a number of characters. -/
def shortened (size : Nat) (text : String) : String :=
  String.ofList (text.toList.take size)

theorem quoteMark_eq_double_iff {text : List Char} :
    quoteMark text = '"' ↔ '\'' ∈ text ∧ '"' ∉ text := by
  unfold quoteMark
  split <;> simp_all

end CodeFacts.Text
