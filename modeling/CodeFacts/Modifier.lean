import CodeFacts.Fault

/-!
The visibilities and modifiers of declarations, and the bit mask a set of modifiers is stored as.
-/

namespace CodeFacts

/-- Who may refer to a declaration. -/
inductive Visibility where
  | publicAccess
  | protectedAccess
  | defaultAccess
  | privateAccess
  deriving DecidableEq, Repr

namespace Visibility

def word : Visibility → String
  | .publicAccess => "public"
  | .protectedAccess => "protected"
  | .defaultAccess => "default"
  | .privateAccess => "private"

/-- Every visibility, the widest first and the unwritten one before the narrowest. -/
def all : List Visibility := [.publicAccess, .protectedAccess, .defaultAccess, .privateAccess]

def ofWord? (word : String) : Option Visibility :=
  all.find? fun visibility => visibility.word == word

def ofValue? : Value → Option Visibility
  | .text word => ofWord? word
  | _ => none

/-- The visibility of a value, which must be the word of one. -/
def ofValue (value : Value) : Except Fault Visibility :=
  match ofValue? value with
  | some visibility => .ok visibility
  | none => .error (.value (.noVisibility value.shown))

/-- The visibility among the keywords of a declaration; the widest wins. -/
def ofKeywords (keywords : List String) : Visibility :=
  ([.publicAccess, .protectedAccess, .privateAccess].find? fun visibility : Visibility =>
    decide (visibility.word ∈ keywords)).getD .defaultAccess

@[simp] theorem ofWord?_word (visibility : Visibility) :
    ofWord? visibility.word = some visibility := by
  cases visibility <;> decide +kernel

end Visibility

/-- The modifiers of a declaration. -/
inductive Modifier where
  | abstract
  | final
  | static
  | volatile
  | native
  | transient
  | synchronized
  deriving DecidableEq, Repr

namespace Modifier

/-- Every modifier, in the order of their bits. -/
def all : List Modifier :=
  [.abstract, .final, .static, .volatile, .native, .transient, .synchronized]

def bit : Modifier → Nat
  | .abstract => 0x01
  | .final => 0x02
  | .static => 0x04
  | .volatile => 0x08
  | .native => 0x10
  | .transient => 0x20
  | .synchronized => 0x40

def name : Modifier → String
  | .abstract => "ABSTRACT"
  | .final => "FINAL"
  | .static => "STATIC"
  | .volatile => "VOLATILE"
  | .native => "NATIVE"
  | .transient => "TRANSIENT"
  | .synchronized => "SYNCHRONIZED"

def ofName? (name : String) : Option Modifier :=
  all.find? fun modifier => modifier.name == name

/-- The mask of some bits: every bit that one of them has. -/
def mask (bits : List Nat) : Nat :=
  bits.foldl (· ||| ·) 0

/-- The modifiers whose bit a mask has, in the order of their bits. A negative mask is read in
two's complement. -/
def ofMask (mask : Int) : List Modifier :=
  all.filter fun modifier => mask / (modifier.bit : Int) % 2 == 1

/-- The bits of a number given in place of modifiers. A negative number stands for the bits it has
in two's complement: in as many bits as the modifiers have, or where these do not hold it, in as
many as its size has. -/
def rawBits (value : Int) : Nat :=
  match value with
  | .ofNat bits => bits
  | .negSucc less =>
      if less < 0x80 then 0x80 - (less + 1)
      else Nat.pow 2 (Nat.log2 (less + 1) + 1) - (less + 1)

/-- The bits of an unchecked value: the name of a modifier, or a number given in place of some. A
number with a point must be the bit of one modifier. -/
def bitsOfValue : Value → Except Fault Nat
  | .text name =>
      match ofName? name with
      | some modifier => .ok modifier.bit
      | none => .error (.unsupported .part)
  | .int value => .ok (rawBits value)
  | .bool value => .ok (if value then 1 else 0)
  | value =>
      match all.find? fun modifier => value.isReal modifier.bit with
      | some modifier => .ok modifier.bit
      | none => .error (.value (.noModifier value.shown))

/-- The capitals of a character, where they are capitals of the alphabet the names are written in;
any other character stands for itself and is in no name. -/
def capitals (c : Char) : List Char :=
  if 'a' ≤ c ∧ c ≤ 'z' then [Char.ofNat (c.toNat - 0x20)]
  else
    match c with
    | 'ß' => ['S', 'S']
    | 'ı' => ['I']
    | 'ſ' => ['S']
    | 'ﬀ' => ['F', 'F']
    | 'ﬁ' => ['F', 'I']
    | 'ﬂ' => ['F', 'L']
    | 'ﬃ' => ['F', 'F', 'I']
    | 'ﬄ' => ['F', 'F', 'L']
    | 'ﬅ' => ['S', 'T']
    | 'ﬆ' => ['S', 'T']
    | c => [c]

/-- The modifier of a keyword, in any case. -/
def ofKeyword? (keyword : String) : Option Modifier :=
  ofName? (String.ofList (keyword.toList.flatMap capitals))

/-- The modifiers among the keywords of a declaration, each once. -/
def ofKeywords (keywords : List String) : List Modifier :=
  (keywords.filterMap ofKeyword?).foldl
    (fun found modifier => if modifier ∈ found then found else found ++ [modifier]) []

@[simp] theorem ofName?_name (modifier : Modifier) : ofName? modifier.name = some modifier := by
  cases modifier <;> decide +kernel

end Modifier

end CodeFacts
