import CodeFacts.Fault
import CodeFacts.Store.Reference
import CodeFacts.Store.ShortName
import CodeFacts.Triple

/-!
Reading statements back. Each part of a document is taken off what is left of it; what is not
recognized is tried as something else, and only where nothing else could stand does reading stop.
The line ends passed are counted for messages, those before a literal twice.
-/

namespace CodeFacts.Turtle

/-- Where reading stops: why, after how many line ends, and with what left of the document, unless
that has no place. -/
structure Stop where
  cause : StatementFault
  line : Nat
  left : Option (List Char)

/-- A step of reading, which knows how many line ends were passed. -/
abbrev Reading (α : Type) : Type := StateT Nat (Except Stop) α

/-- What a step may take off a document, and what it leaves. -/
abbrev Taken (α : Type) : Type := Option (α × List Char)

def stop {α : Type} (cause : StatementFault) (left : List Char) : Reading α := do
  throw ⟨cause, ← get, some left⟩

/-! ### Blanks -/

/-- Whether a character is a blank inside a line. -/
def isGap (c : Char) : Bool := c == ' ' || c == '\t'

/-- What follows a comment, up to its line end. -/
def afterComment (left : List Char) : List Char :=
  if left.head? = some '#' then left.dropWhile (· != '\n') else left

def afterEnd? : List Char → Option (List Char)
  | '\n' :: next => some next
  | '\r' :: '\n' :: next => some next
  | _ => none

/-- What follows a line that holds nothing but a comment. -/
def afterLine? (left : List Char) : Option (List Char) :=
  afterEnd? (afterComment (left.dropWhile isGap))

theorem length_lt_of_afterEnd {left next : List Char} (found : afterEnd? left = some next) :
    next.length < left.length := by
  unfold afterEnd? at found
  split at found
  · simp_all
  · simp_all only [Option.some.injEq, List.length_cons]
    omega
  · simp at found

theorem length_lt_of_afterLine {left next : List Char} (line : afterLine? left = some next) :
    next.length < left.length := by
  have gaps := (left.dropWhile_sublist isGap).length_le
  have comment : (afterComment (left.dropWhile isGap)).length ≤ (left.dropWhile isGap).length := by
    unfold afterComment
    split
    · exact (List.dropWhile_sublist _).length_le
    · exact Nat.le_refl _
  have finish := length_lt_of_afterEnd line
  omega

/-- The line ends of the lines that hold nothing but comments, and what follows these and the blanks
after them. -/
def skipLines (passed : Nat) (left : List Char) : Nat × List Char :=
  match line : afterLine? left with
  | some next =>
      have := length_lt_of_afterLine line
      skipLines (passed + 1) next
  | none =>
      let rest := left.dropWhile isGap
      (passed, if rest.head? = some '#' then [] else rest)
termination_by left.length

def skip (left : List Char) : Reading (List Char) := do
  let (passed, rest) := skipLines (← get) left
  set passed
  return rest

/-! ### Names -/

def nameStops : List Char := "\t\r\n !\"#$&'()*+,/;<=>?@[\\]^\x60\x7b|\x7d~".toList

def isHexDigit (c : Char) : Bool :=
  c.isDigit || ('a' ≤ c && c ≤ 'f') || ('A' ≤ c && c ≤ 'F')

/-- The name a document starts with. After a percent sign two hexadecimal digits must follow. -/
def localName : List Char → Reading (List Char × List Char)
  | '\\' :: c :: rest => do
      let (name, left) ← localName rest
      return (c :: name, left)
  | '%' :: rest =>
      if (rest.take 2).length = 2 ∧ (rest.take 2).all isHexDigit then do
        let (name, left) ← localName rest
        return ('%' :: name, left)
      else stop .hexEscape ('%' :: rest)
  | c :: rest =>
      if c ∈ nameStops then return ([], c :: rest)
      else do
        let (name, left) ← localName rest
        return (c :: name, left)
  | [] => return ([], [])

/-- The key and the name of the short name a document starts with. A dot at the end is no part of
it. -/
def shortName (left : List Char) : Reading (Taken (List Char × List Char)) := do
  let (key, rest) := left.span fun c => decide (c ∉ nameStops) && c != ':'
  if left.head?.any (fun c => c.isDigit || c == '-' || c == '+') || key.head? == some '.' ||
      key.getLast? == some '.' then
    return none
  else
    match rest with
    | ':' :: rest =>
        let (name, left) ← localName rest
        if name.getLast? = some '.' then
          if name.length = 1 then return none else return some ((key, name.dropLast), '.' :: left)
        else return some ((key, name), left)
    | _ => return none

/-! ### Terms -/

inductive Term where
  | resource (text : String)
  | literal (text : String)

def Term.text : Term → String
  | .resource text => text
  | .literal text => text

def Term.triple (subject predicate object : Term) : Triple :=
  ⟨subject.text, predicate.text, object.text,
    match object with
    | .resource _ => false
    | .literal _ => true⟩

/-- What a document was told so far: its place, and the namespaces of its keys. -/
structure Context where
  place : List Char
  spaces : List (List Char × List Char)

def resourceTerm (context : Context) (left : List Char) : Reading (Taken (List Char)) := do
  let left ← skip left
  match ← shortName left with
  | some ((key, name), rest) =>
      match context.spaces.find? fun entry => entry.1 == key with
      | some (_, space) => return some (space ++ name, rest)
      | none => stop (.undeclared (String.ofList key)) left
  | none =>
      match left with
      | '(' :: ')' :: rest => return some ((termSpace ++ "nil").toList, rest)
      | '<' :: inside =>
          return (Text.cut '>' inside).map fun (text, rest) =>
            (Reference.besides context.place text, rest)
      | _ => return none

/-- The character an escape in a literal stands for. -/
def unescape : Char → Char
  | 'n' => '\n'
  | 'r' => '\r'
  | 't' => '\t'
  | c => c

/-- A literal up to its closing mark, on one line. -/
def shortText (mark : Char) : List Char → Reading (List Char × List Char)
  | [] => stop .unendedText []
  | '\\' :: c :: rest => do
      let (text, left) ← shortText mark rest
      return (unescape c :: text, left)
  | c :: rest =>
      if c = mark then return ([], rest)
      else if c = '\n' ∨ c = '\r' then stop .lineInText (c :: rest)
      else do
        let (text, left) ← shortText mark rest
        return (c :: text, left)

/-- A literal up to the first three marks in a row; up to two more before them belong to it. -/
def longText (mark : Char) : List Char → Reading (List Char × List Char)
  | [] => stop .unendedText []
  | '\\' :: c :: rest => do
      let (text, left) ← longText mark rest
      return (unescape c :: text, left)
  | c :: rest => do
      let marks := if c = mark then 1 + (rest.takeWhile (· == mark)).length else 0
      if 5 ≤ marks then return ([mark, mark], rest.drop 4)
      else if marks = 4 then return ([mark], rest.drop 3)
      else if marks = 3 then return ([], rest.drop 2)
      else
        if c = '\n' ∨ c = '\r' then modify (· + 1)
        let (text, left) ← longText mark rest
        return (c :: text, left)

def literalTerm (left : List Char) : Reading (Taken (List Char)) := do
  match ← skip left with
  | c :: rest =>
      if c = '"' ∨ c = '\'' then
        if rest.take 2 = [c, c] then some <$> longText c (rest.drop 2)
        else some <$> shortText c rest
      else return none
  | [] => return none

/-- The term a document starts with, before it is known whether a path goes on from it. -/
def startTerm (context : Context) (left : List Char) : Reading (Taken Term) := do
  match ← resourceTerm context left with
  | some (text, rest) => return some (.resource (String.ofList text), rest)
  | none =>
      return (← literalTerm left).map fun (text, rest) => (.literal (String.ofList text), rest)

/-- The term a document starts with. A path that goes on from it must lead to a resource and is
taken for its start. -/
def term (context : Context) (left : List Char) : Reading (Taken Term) := do
  match ← startTerm context left with
  | some (start, '!' :: step) =>
      match ← resourceTerm context step with
      | some (_, rest) => return some (.resource start.text, rest)
      | none => throw ⟨.noStep, ← get, none⟩
  | found => return found

/-! ### Statements -/

/-- The predicate a document starts with. One whose text starts with an equals sign would be an
arrow, which statements have no use for. -/
def verb (context : Context) (left : List Char) : Reading (Taken Term) := do
  match ← skip left with
  | [] => return none
  | '<' :: '=' :: rest => stop .backwardArrow ('<' :: '=' :: rest)
  | 'a' :: c :: rest =>
      if c ∈ '.' :: nameStops then return some (.resource (termSpace ++ "type"), c :: rest)
      else term context ('a' :: c :: rest)
  | left => term context left

/-- The objects a document starts with, commas between them. Each step takes something off. -/
def objectTerms (context : Context) : (steps : Nat) → List Char → Reading (Taken (List Term))
  | 0, _ => return none
  | steps + 1, left => do
      match ← term context left with
      | none =>
          let _ ← skip left
          return none
      | some (object, rest) =>
          match ← skip rest with
          | [] => throw ⟨.afterObject, ← get, none⟩
          | ',' :: next =>
              return (← objectTerms context steps next).map fun (more, left) =>
                (object :: more, left)
          | left => return some ([object], left)

/-- What follows the semicolons a document starts with. Each step takes something off. -/
def skipSemicolons : (steps : Nat) → List Char → Reading (List Char)
  | 0, left => return left
  | steps + 1, left => do
      match ← skip left with
      | [] => stop .noVerb left
      | ';' :: next => skipSemicolons steps next
      | left => return left

/-- The predicates of a subject with their objects, semicolons between them. Each step takes
something off. -/
def properties (context : Context) (subject : Term) :
    (steps : Nat) → List Char → Reading (List Triple × List Char)
  | 0, left => return ([], left)
  | steps + 1, left => do
      let left ← skipSemicolons (left.length + 1) left
      match ← verb context left with
      | none => return ([], left)
      | some (predicate, after) =>
          match ← objectTerms context (after.length + 1) after with
          | none => stop .noObject after
          | some (found, rest) =>
              let triples := found.map (Term.triple subject predicate)
              match ← skip rest with
              | ';' :: next =>
                  let (more, left) ← properties context subject steps next
                  return (triples ++ more, left)
              | left => return (triples, left)

/-- What follows the end of the statement that starts a document. -/
def close (start left : List Char) : Reading (List Char) := do
  match ← skip left with
  | [] => stop .noStatement start
  | '.' :: next => return next
  | c :: rest =>
      if c = '\x7d' ∨ c = ']' then return c :: rest else stop .noEnd (c :: rest)

def declarationMark : List Char := "@prefix ".toList

/-- The declaration of a key that a document starts with. -/
def declaration (context : Context) (left : List Char) :
    Reading (Taken (List Char × List Char)) := do
  if declarationMark.isPrefixOf left then
    match ← shortName (← skip (left.drop declarationMark.length)) with
    | some ((key, _), rest) =>
        return (← resourceTerm context rest).map fun (space, left) => ((key, space), left)
    | none => return none
  else return none

/-- The triples of a document. Each step takes something off. -/
def document (context : Context) : (steps : Nat) → List Char → Reading (List Triple)
  | 0, _ => return []
  | steps + 1, left => do
      let start ← skip left
      if start = [] then return []
      else
        match ← declaration context start with
        | some (entry, rest) =>
            let left ← close start rest
            document { context with spaces := entry :: context.spaces } steps left
        | none =>
            match ← term context start with
            | none => stop .noStatement start
            | some (subject, rest) =>
                let (triples, rest) ← properties context subject (rest.length + 1) rest
                let left ← close start rest
                return triples ++ (← document context steps left)

/-- The triples of a document in a file at a place. -/
def read (place : String) (text : List Char) : Except Fault (List Triple) :=
  match (document ⟨place.toList, []⟩ (text.length + 1) text).run 0 with
  | .ok (triples, _) => .ok triples
  | .error stopped =>
      .error (.statement stopped.cause stopped.line (String.ofList text)
        (stopped.left.map fun left => text.length - left.length))

end CodeFacts.Turtle
