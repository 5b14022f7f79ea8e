import CodeFacts.Fault

/-!
Positions in a sequence. A negative position counts from the end, and a position must fit in a
machine word before it is looked at.
-/

namespace CodeFacts

/-- Whether a position fits in a signed word of 64 bits. -/
def fitsWord (position : Int) : Bool :=
  -(Text.twoTo 63 : Int) ≤ position && position < (Text.twoTo 63 : Int)

def pick {α : Type} (items : List α) (position : Int) : Except Fault α :=
  if fitsWord position then
    let index := if position < 0 then position + items.length else position
    if index < 0 then .error (.index .outside)
    else
      match items[index.toNat]? with
      | some item => .ok item
      | none => .error (.index .outside)
  else .error (.index .beyondWord)

theorem pick_of_lt {α : Type} {items : List α} {index : Nat} (inside : index < items.length)
    (word : index < Text.twoTo 63) : pick items index = .ok items[index] := by
  have fits : fitsWord index = true := by
    simp only [fitsWord, Bool.and_eq_true, decide_eq_true_eq]
    omega
  have start : ¬((index : Int) < 0) := by omega
  simp [pick, fits, start, inside]

end CodeFacts
