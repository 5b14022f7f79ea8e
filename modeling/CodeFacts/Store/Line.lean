import CodeFacts.Fault
import CodeFacts.Text.Blank
import CodeFacts.Text.Split
import CodeFacts.Triple

/-!
Triples written one a line: resources between angles, literals between quotes, a dot at the end. A
line is read from left to right, each part being taken off what is left. A resource is read up to
its first colon whatever stands there, and from then on only without blanks, angles and quotes; so
one without a colon takes in what comes after it, escapes included.
-/

namespace CodeFacts.Line

/-! ### Writing -/

def angled (text : String) : List Char := '<' :: text.toList ++ ['>']

/-- What stands for a character of a literal; quotes, backslashes and line ends are escaped. -/
def escape (c : Char) : List Char :=
  if c = '\\' ∨ c = '"' then ['\\', c]
  else if c = '\n' then ['\\', 'n']
  else if c = '\r' then ['\\', 'r']
  else [c]

def quoted (text : String) : List Char := '"' :: text.toList.flatMap escape ++ ['"']

def write (triple : Triple) : List Char :=
  Text.joinWith ' '
    [angled triple.subject, angled triple.predicate,
      if triple.literal then quoted triple.object else angled triple.object, ['.']]

/-! ### Reading -/

/-- A line that cannot be read further than to what is left of it. -/
def stop {α : Type} (left : List Char) : Except Fault α :=
  .error (.unreadable (String.ofList left))

/-- Whether a character can stand in a resource after its first colon. -/
def isPlain (c : Char) : Bool := !Text.isBlank c && c != '"' && c != '<' && c != '>'

def unescape : Char → Char
  | 'n' => '\n'
  | 'r' => '\r'
  | c => c

def unescaped : List Char → List Char
  | '\\' :: c :: rest => unescape c :: unescaped rest
  | c :: rest => c :: unescaped rest
  | [] => []

/-- The resource a line starts with, and what is left. -/
def resource (line : List Char) : Except Fault (String × List Char) :=
  match line with
  | '<' :: inside =>
      match Text.cut ':' inside with
      | some (first :: start, rest) =>
          match rest.span isPlain with
          | (more, '>' :: left) =>
              .ok (String.ofList (unescaped (first :: start ++ ':' :: more)), left)
          | _ => stop line
      | _ => stop line
  | _ => stop line

/-- Whether a character can stand between two parts of a line. -/
def isGap (c : Char) : Bool := c == ' ' || c == '\t'

/-- What is left after the gap a line starts with. -/
def gap (line : List Char) : Except Fault (List Char) :=
  if line.head?.any isGap then .ok (line.dropWhile isGap) else stop line

/-- The text of a literal after its opening quote, and what is left after its closing one. -/
def literalText : List Char → Option (List Char × List Char)
  | [] => none
  | '"' :: left => some ([], left)
  | '\\' :: c :: rest => (literalText rest).map fun (text, left) => (unescape c :: text, left)
  | c :: rest => (literalText rest).map fun (text, left) => (c :: text, left)

/-- The predicate a line starts with, which must be a resource, and what is left. -/
def predicate (line : List Char) : Except Fault (String × List Char) :=
  if line.head? = some '<' then resource line else stop line

/-- The object a line starts with, whether it is a literal, and what is left. -/
def object (line : List Char) : Except Fault (String × Bool × List Char) :=
  match line with
  | '<' :: _ => (resource line).map fun (text, left) => (text, false, left)
  | '"' :: rest =>
      match literalText rest with
      | some (text, left) => .ok (String.ofList text, true, left)
      | none => stop line
  | _ => stop line

/-- Whether a line ends with its dot; a comment may follow. -/
def close (line : List Char) : Except Fault Unit :=
  match line.dropWhile isGap with
  | '.' :: rest =>
      match rest.dropWhile isGap with
      | [] | '#' :: _ => .ok ()
      | left => stop left
  | _ => stop line

def read (line : List Char) : Except Fault Triple := do
  let (subject, line) ← resource line
  let (predicate, line) ← predicate (← gap line)
  let (object, literal, line) ← object (← gap line)
  close line
  return ⟨subject, predicate, object, literal⟩

def first (text : List Char) : List Char := text.takeWhile fun c => c != '\n' && c != '\r'

theorem literalText_escape (text left : List Char) :
    literalText (text.flatMap escape ++ '"' :: left) = some (text, left) := by
  induction text with
  | nil => rfl
  | cons c rest ih =>
      simp only [List.flatMap_cons, List.append_assoc, escape]
      split
      case isTrue mark =>
        rcases mark with rfl | rfl <;> simp [literalText, ih, unescape]
      case isFalse other =>
        split
        case isTrue line => simp [literalText, ih, unescape, line]
        case isFalse =>
          split
          case isTrue line => simp [literalText, ih, unescape, line]
          case isFalse =>
            simp only [not_or] at other
            simp [literalText, ih, other.1, other.2]

end CodeFacts.Line
