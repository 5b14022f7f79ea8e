import CodeFacts.Source.Trace
import Mathlib.Data.List.Forall2

/-!
What traces in a row come to: their calls in a row if none of them stops early, and one run after
the other.
-/

namespace CodeFacts.Trace

theorem of_append {first second : Trace} (whole : (first ++ second).fault = none) :
    first.fault = none ∧ second.fault = none ∧
      (first ++ second).calls = first.calls ++ second.calls := by
  obtain ⟨calls, fault⟩ := first
  cases fault with
  | none => exact ⟨rfl, whole, rfl⟩
  | some fault => cases whole

theorem calls_ofCall {told : Except Fault Call} (passed : (ofCall told).fault = none) :
    ∃ call, told = .ok call ∧ ofCall told = ofCalls [call] := by
  cases told with
  | ok call => exact ⟨call, rfl, rfl⟩
  | error fault => cases passed

theorem calls_join {α : Type} {told : α → Except Fault Call} {items : List α}
    (passed : (join (items.map fun item => ofCall (told item))).fault = none) :
    List.Forall₂ (fun item call => told item = .ok call) items
      (join (items.map fun item => ofCall (told item))).calls := by
  induction items with
  | nil => exact .nil
  | cons item rest ih =>
      rw [List.map_cons, join_cons] at passed ⊢
      obtain ⟨this, later, calls⟩ := of_append passed
      obtain ⟨call, given, one⟩ := calls_ofCall this
      rw [calls, one]
      exact .cons given (ih later)

variable {η : Type} [Handler η]

/-- A trace is run up to where it stops, and what comes after it only if it does not stop. -/
theorem run_append (first second : Trace) (state : η) :
    (first ++ second).run state =
      match first.run state with
      | (some fault, notices, next) => (some fault, notices, next)
      | (none, notices, next) =>
          let (fault, more, last) := second.run next
          (fault, notices ++ more, last) := by
  obtain ⟨calls, stopped⟩ := first
  cases stopped with
  | some fault =>
      show run ⟨calls, some fault⟩ state = _
      simp only [run]
      obtain ⟨refused, notices, next⟩ := Handler.handleAll state calls
      cases refused <;> rfl
  | none =>
      show run ⟨calls ++ second.calls, second.fault⟩ state = _
      simp only [run, Handler.handleAll_append, Option.or_none]
      generalize Handler.handleAll state calls = reached
      obtain ⟨refused, notices, next⟩ := reached
      cases refused <;> rfl

end CodeFacts.Trace
