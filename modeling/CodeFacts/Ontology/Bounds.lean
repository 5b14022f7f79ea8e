import CodeFacts.Value.Checked

/-!
The least and the most items a collection may have.
-/

namespace CodeFacts

/-- Bounds on the size of a collection; without a most it is unbounded. -/
structure Bounds where
  least : Int
  most : Option Int
  least_nonneg : 0 ≤ least
  least_le_most : ∀ most_ ∈ most, least ≤ most_
  deriving DecidableEq

namespace Bounds

def make (least : Int) (most : Option Int) : Except BrokenRule Bounds :=
  if nonneg : 0 ≤ least then
    match most with
    | none => .ok ⟨least, none, nonneg, by simp⟩
    | some top =>
        if ordered : least ≤ top then .ok ⟨least, some top, nonneg, by simpa using ordered⟩
        else .error (.crossedBounds least top)
  else .error (.negativeBound least)

/-- The bounds without a most. -/
def atLeastZero : Bounds := ⟨0, none, by decide, by simp⟩

def read (record : Value) : Except Fault Bounds := do
  let readMost (path : List String) : Value → Checked (Option Int)
    | .null => .good none
    | value => some <$> Checked.integer path value
  let (least, most) ← Checked.result <|
    Prod.mk <$> Checked.optional Checked.integer 0 [] "min" record
      <*> Checked.optional readMost none [] "max" record
  match make least most with
  | .ok bounds => return bounds
  | .error rule => .error (.field [] (.broken rule))

def holds (bounds : Bounds) (size : Int) : Bool :=
  decide (bounds.least ≤ size) &&
    (match bounds.most with
    | none => true
    | some most => decide (size ≤ most))

/-- Whether an unchecked size, which must be a number, is within the bounds. -/
def holdsValue (bounds : Bounds) (size : Value) : Except Fault Bool :=
  let less (left right : Value) : Except Fault Bool :=
    match left.less? right with
    | some answer => .ok answer
    | none => .error (.unsupported .operation)
  match bounds.most with
  | none => not <$> less size (.int bounds.least)
  | some most => not <$> (less size (.int bounds.least) <||> less (.int most) size)

def text (bounds : Bounds) : String :=
  "[" ++ Text.decimal bounds.least ++ ".." ++
    (match bounds.most with
    | none => "*"
    | some most => Text.decimal most) ++ "]"

def fields (bounds : Bounds) : List (String × Value) :=
  [("min", .int bounds.least), ("max", bounds.most.elim .null .int)]

end Bounds

end CodeFacts
