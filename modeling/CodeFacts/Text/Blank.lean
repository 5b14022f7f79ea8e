/-!
Blanks and line breaks: which characters separate words, which end a line, and the two operations
that need them, dropping the blanks around a text and cutting a text into lines.
-/

namespace CodeFacts.Text

/-- Blanks are the tabs, line ends, separators and spaces of every script. -/
def isBlank (c : Char) : Bool :=
  let code := c.toNat
  (0x09 ≤ code && code ≤ 0x0D) || (0x1C ≤ code && code ≤ 0x20) || code == 0x85 || code == 0xA0 ||
    code == 0x1680 || (0x2000 ≤ code && code ≤ 0x200A) || code == 0x2028 || code == 0x2029 ||
    code == 0x202F || code == 0x205F || code == 0x3000

/-- The characters that end a line. A carriage return with a line feed after it ends one line. -/
def isLineBreak (c : Char) : Bool :=
  let code := c.toNat
  (0x0A ≤ code && code ≤ 0x0D) || (0x1C ≤ code && code ≤ 0x1E) || code == 0x85 ||
    code == 0x2028 || code == 0x2029

/-- A text without the blanks it starts with. -/
def dropBlanks (text : List Char) : List Char :=
  text.dropWhile isBlank

/-- A text without the blanks it starts and ends with. -/
def strip (text : List Char) : List Char :=
  ((dropBlanks text).reverse.dropWhile isBlank).reverse

/-- The lines of a text without their ends; what follows the last end is a line unless it is
empty. -/
def lines : List Char → List (List Char)
  | [] => []
  | '\r' :: '\n' :: rest => [] :: lines rest
  | c :: rest =>
      if isLineBreak c then [] :: lines rest
      else
        match lines rest with
        | line :: more => (c :: line) :: more
        | [] => [[c]]

def isBlankText (text : String) : Bool :=
  text.toList.all isBlank

def stripText (text : String) : String :=
  String.ofList (strip text.toList)

theorem isBlank_of_isWhitespace {c : Char} (space : c.isWhitespace = true) : isBlank c = true := by
  simp only [Char.isWhitespace, Bool.or_eq_true, decide_eq_true_eq] at space
  rcases space with ((rfl | rfl) | rfl) | rfl <;> decide

theorem isBlank_of_isLineBreak {c : Char} (ends : isLineBreak c = true) : isBlank c = true := by
  simp only [isLineBreak, isBlank, Bool.or_eq_true, Bool.and_eq_true, decide_eq_true_eq,
    beq_iff_eq] at ends ⊢
  omega

end CodeFacts.Text
