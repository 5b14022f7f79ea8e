import CodeFacts.Event.Basic

/-!
Recorders: they turn every call into an event, pass the call of that event on to another handler if
there is one, and keep the events of the calls it accepts.
-/

namespace CodeFacts

/-- A handler that may be missing, and the events recorded, in order. -/
structure Recorder (η : Type) where
  wrapped : Option η
  log : List Event

namespace Recorder

variable {η : Type}

def start (wrapped : Option η) : Recorder η := ⟨wrapped, []⟩

/-- The reply to a call that an event can record and stand for. -/
def handle [Handler η] (recorder : Recorder η) (call : Call) : Reply × Recorder η :=
  match Event.ofCall call with
  | .error fault => (.refused fault [], recorder)
  | .ok event =>
      match recorder.wrapped with
      | none => (.accepted [], { recorder with log := recorder.log ++ [event] })
      | some inner =>
          match event.toCall with
          | .error fault => (.refused fault [], recorder)
          | .ok recorded =>
              let (reply, next) := Handler.handle recorded inner
              (reply,
                { wrapped := some next
                  log := if reply.isAccepted then recorder.log ++ [event] else recorder.log })

instance [Handler η] : Handler (Recorder η) where
  handle call recorder := recorder.handle call

end Recorder

end CodeFacts
