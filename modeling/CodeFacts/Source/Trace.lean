import CodeFacts.Call

/-!
Traces: the calls that tell a text, and why the telling stops early if it does.
-/

namespace CodeFacts

/-- Calls in order, and the fault after them if there is one. -/
structure Trace where
  calls : List Call
  fault : Option Fault

namespace Trace

def empty : Trace := ⟨[], none⟩

def ofCalls (calls : List Call) : Trace := ⟨calls, none⟩

def stop (fault : Fault) : Trace := ⟨[], some fault⟩

def ofCall (call : Except Fault Call) : Trace :=
  match call with
  | .ok call => ofCalls [call]
  | .error fault => stop fault

/-- One trace after another, unless the first stops early. -/
def append (first second : Trace) : Trace :=
  match first.fault with
  | some _ => first
  | none => ⟨first.calls ++ second.calls, second.fault⟩

instance : Append Trace := ⟨append⟩

def join (traces : List Trace) : Trace := traces.foldr append empty

@[simp] theorem empty_append (trace : Trace) : empty ++ trace = trace := rfl

@[simp] theorem append_empty (trace : Trace) : trace ++ empty = trace := by
  obtain ⟨calls, fault⟩ := trace
  cases fault with
  | none => exact congrArg (Trace.mk · none) (List.append_nil calls)
  | some fault => rfl

theorem append_assoc (first second third : Trace) :
    first ++ second ++ third = first ++ (second ++ third) := by
  obtain ⟨calls, fault⟩ := first
  cases fault with
  | some fault => rfl
  | none =>
      obtain ⟨more, fault⟩ := second
      cases fault with
      | some fault => rfl
      | none => exact congrArg (Trace.mk · third.fault) (List.append_assoc calls more third.calls)

@[simp] theorem ofCalls_append (first second : List Call) :
    ofCalls first ++ ofCalls second = ofCalls (first ++ second) := rfl

@[simp] theorem join_nil : join [] = empty := rfl

@[simp] theorem join_cons (trace : Trace) (rest : List Trace) :
    join (trace :: rest) = trace ++ join rest := rfl

/-- The calls of a trace handled up to the first that is refused: why it ended, if not well, all
notices, and the state after it. -/
def run {η : Type} [Handler η] (trace : Trace) (state : η) : Option Fault × List Notice × η :=
  let (refused, notices, next) := Handler.handleAll state trace.calls
  (refused.or trace.fault, notices, next)

end Trace

end CodeFacts
